import PagedQuery.Binary64.Decimal

/-!
# Histogram boundaries

The interior boundaries of a histogram from `start` to `finish` with buckets
of one size: `start + k · size` for `k ≥ 1`, rounded to six significant digits
below the size. One definition serves every kind of number: doubles, where
each operation rounds, and the rationals, where none does.

* `Arithmetic`: the operations the boundaries are computed with;
* `Histogram.bucketCount?`: how many buckets there are;
* `Histogram.points?`: the boundaries, `none` for parameters that make no histogram.
-/

namespace PagedQuery

/-- A kind of number with the operations that histogram boundaries need. -/
structure Arithmetic (α : Type) where
  /-- The nearest number of this kind. -/
  ofRat : Rat → α
  add : α → α → α
  sub : α → α → α
  mul : α → α → α
  div : α → α → α
  lt : α → α → Bool
  abs : α → α
  isFinite : α → Bool
  /-- The least whole number not below a finite number. -/
  ceiling : α → Int
  /-- The nearest whole number, a half going away from zero. -/
  round : α → α
  /-- The greatest `k` with `10 ^ k` not above a positive finite number. -/
  decade : α → Int

namespace Arithmetic

/-- Multiplies `result` by `base ^ n` by repeated squaring, for an `n` of at most `bits` bits. -/
def powFrom (arith : Arithmetic α) (result base : α) (n : Nat) : (bits : Nat) → α
  | 0 => result
  | bits + 1 =>
    powFrom arith (if n % 2 = 1 then arith.mul result base else result)
      (arith.mul base base) (n / 2) bits

/-- `base ^ n`, with the roundings of repeated squaring. -/
def pow (arith : Arithmetic α) (base : α) (n : Nat) : α :=
  arith.powFrom (arith.ofRat 1) base n (n.log2 + 1)

end Arithmetic

/-! ## Two kinds of numbers -/

/-- The greatest `k` with `10 ^ k ≤ r`, for `r > 0`: the digits before the point are counted, of
`r` or of what it takes to get from `r` to one. -/
def wholeDecade (r : Rat) : Int :=
  if 1 ≤ r then ((Nat.toDigits 10 r.floor.toNat).length : Int) - 1
  else -((Nat.toDigits 10 ((1 / r).ceil.toNat - 1)).length : Int)

/-- Exact arithmetic. -/
def Arithmetic.exact : Arithmetic Rat where
  ofRat r := r
  add x y := x + y
  sub x y := x - y
  mul x y := x * y
  div x y := x / y
  lt x y := decide (x < y)
  abs x := if x < 0 then -x else x
  isFinite _ := true
  ceiling x := x.ceil
  round x := if x < 0 then -((mkRat 1 2 - x).floor : Int) else ((x + mkRat 1 2).floor : Int)
  decade := wholeDecade

/-- Half the distance from a whole number `k ≠ 0` to the next double below it. -/
def halfStepBelow (k : Int) : Rat :=
  let bits := k.natAbs.log2
  if 0 < k ∧ k.natAbs = Nat.pow 2 bits then Binary64.twoPow ((bits : Int) - 54)
  else Binary64.twoPow ((bits : Int) - 53)

/-- The natural logarithm of ten, to forty places. -/
def naturalLogOfTen : Rat :=
  mkRat 23025850929940456840179914546843642076011 (Nat.pow 10 40)

/-- The whole part of the decimal logarithm, the logarithm being rounded to a double first: a
number so close below a power of ten that its logarithm rounds to a whole number counts as
that power. -/
def roundedDecade (r : Rat) : Int :=
  let k := Binary64.decade r
  let next := k + 1
  let power := Binary64.tenPow next
  if next ≠ 0 ∧ power - r < power * halfStepBelow next * naturalLogOfTen then next else k

/-- Double precision arithmetic. -/
def Arithmetic.binary64 : Arithmetic Binary64 where
  ofRat := Binary64.ofRat
  add := Binary64.add
  sub := Binary64.sub
  mul := Binary64.mul
  div := Binary64.div
  lt := Binary64.lt
  abs := Binary64.abs
  isFinite := Binary64.isFinite
  ceiling x := x.toRat.ceil
  round := Binary64.roundHalfAway
  decade x := roundedDecade x.toRat

/-! ## Boundaries -/

namespace Histogram

/-- The most buckets a histogram may have. -/
def maxBuckets : Nat := 10000

/-- Scaled numbers of this size or more are whole already. -/
def wholeFrom : Rat := 9000000000000000

/-- The part of a bucket that may be missing at the end without making one more bucket. -/
def slack : Rat := mkRat 1 1000000000

variable (arith : Arithmetic α)

/-- The number of decimal places boundaries are rounded to: six significant digits below
the bucket size. -/
def places (size : α) : Int :=
  6 - arith.decade size

/-- Removes rounding noise from a boundary. Numbers without decimal places, and those too
large to have any noise, stay as they are. -/
def roundPoint (value size : α) : α :=
  let places := places arith size
  if places ≤ 0 then value
  else
    let scale := arith.pow (arith.ofRat 10) places.toNat
    let scaled := arith.mul value scale
    if !arith.isFinite scaled || !arith.lt (arith.abs scaled) (arith.ofRat wholeFrom) then value
    else arith.div (arith.round scaled) scale

/-- The number of buckets: `(finish - start) / size` rounded up, a last bucket within the
slack being dropped. `none` unless the parameters are finite and describe more than one full
bucket and at most `maxBuckets`. -/
def bucketCount? (start finish size : α) : Option Nat :=
  if !(arith.isFinite start && arith.isFinite finish && arith.isFinite size) then none
  else if !arith.lt start finish || !arith.lt (arith.ofRat 0) size
      || !arith.lt size (arith.sub finish start) then none
  else
    let quotient := arith.sub (arith.div (arith.sub finish start) size) (arith.ofRat slack)
    if !arith.isFinite quotient || (maxBuckets : Int) < arith.ceiling quotient then none
    else some (arith.ceiling quotient).toNat

/-- The `k`-th boundary. -/
def point (start size : α) (k : Nat) : α :=
  roundPoint arith (arith.add start (arith.mul (arith.ofRat k) size)) size

/-- Whether numbers increase strictly from `previous` and stay below `finish`. -/
def increasesBelow (previous finish : α) : List α → Bool
  | [] => true
  | p :: rest => arith.lt previous p && arith.lt p finish && increasesBelow p finish rest

/-- The boundaries between the buckets, in order. `none` also when two of them cannot be told
apart, or one cannot be told from an end. -/
def points? (start finish size : α) : Option (List α) := do
  let buckets ← bucketCount? arith start finish size
  let points := (List.range (buckets - 1)).map fun k => point arith start size (k + 1)
  if increasesBelow arith start finish points then some points else none

end Histogram

end PagedQuery
