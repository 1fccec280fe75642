/-!
# Double precision numbers

A number is not-a-number, an infinity, or `± mantissa · 2 ^ exponent` with a
53 bit mantissa. Every operation is the exact rational operation followed by
one rounding to the nearest double, a half going to the even mantissa, so a
statement about doubles is a statement about `Rat` and `ofRat`.

* `Binary64.toRat`, `Binary64.ofRat`: the value of a double, and the nearest double;
* `Binary64.add`, `sub`, `mul`, `div`: rounded arithmetic;
* `Binary64.lt`, `Binary64.le`: the numeric order, false on not-a-number;
* `Binary64.ceiling`, `Binary64.roundHalfAway`: whole neighbours.
-/

namespace PagedQuery

/-- The pairs `(m, q)` that stand for a double `m · 2 ^ q`, each value once: the mantissa has
its leading bit unless the exponent is already the least one. -/
def Binary64.Canonical (mantissa : Nat) (exponent : Int) : Prop :=
  mantissa < Nat.pow 2 53 ∧ -1074 ≤ exponent ∧ exponent ≤ 971 ∧
    (Nat.pow 2 52 ≤ mantissa ∨ exponent = -1074)

instance (mantissa : Nat) (exponent : Int) : Decidable (Binary64.Canonical mantissa exponent) := by
  unfold Binary64.Canonical; infer_instance

/-- A double precision number. Zero keeps its sign; there is one not-a-number. -/
inductive Binary64 where
  | nan
  | infinite (negative : Bool)
  | finite (negative : Bool) (mantissa : Nat) (exponent : Int)
      (canonical : Binary64.Canonical mantissa exponent)
deriving DecidableEq

namespace Binary64

/-- Zero of the given sign. -/
def zero (negative : Bool) : Binary64 :=
  .finite negative 0 (-1074) (by decide)

instance : Inhabited Binary64 := ⟨zero false⟩

def isFinite : Binary64 → Bool
  | .finite .. => true
  | _ => false

/-- The sign bit; not-a-number counts as positive. -/
def isNegative : Binary64 → Bool
  | .nan => false
  | .infinite negative => negative
  | .finite negative .. => negative

/-! ## Values -/

/-- `2 ^ q` for any whole `q`. -/
def twoPow (q : Int) : Rat :=
  if 0 ≤ q then (Nat.pow 2 q.toNat : Rat) else mkRat 1 (Nat.pow 2 (-q).toNat)

/-- `10 ^ k` for any whole `k`. -/
def tenPow (k : Int) : Rat :=
  if 0 ≤ k then (Nat.pow 10 k.toNat : Rat) else mkRat 1 (Nat.pow 10 (-k).toNat)

/-- The absolute value of `mantissa · 2 ^ exponent`. -/
def magnitude (mantissa : Nat) (exponent : Int) : Rat :=
  (mantissa : Rat) * twoPow exponent

/-- The exact value; 0 for what has none. -/
def toRat : Binary64 → Rat
  | .finite negative m q _ => if negative then -(magnitude m q) else magnitude m q
  | _ => 0

/-! ## Rounding -/

/-- The whole number nearest to `n / d`, a half going to the even one. -/
def nearestEven (n d : Nat) : Nat :=
  let floor := n / d
  let rest := n % d
  if 2 * rest < d ∨ (2 * rest = d ∧ floor % 2 = 0) then floor else floor + 1

/-- `n / d` measured in units of `2 ^ q`, as a quotient of whole numbers. -/
def inUnits (n d : Nat) (q : Int) : Nat × Nat :=
  if 0 ≤ q then (n, d * Nat.pow 2 q.toNat) else (n * Nat.pow 2 (-q).toNat, d)

/-- The exponent at which `n / d` has a whole part of at most 53 bits, and of exactly 53 if
the least exponent allows it. -/
def exponentFor (n d : Nat) : Int :=
  let lower := max ((n.log2 : Int) - d.log2 - 53) (-1074)
  let (a, b) := inUnits n d lower
  if a / b < Nat.pow 2 53 then lower else lower + 1

/-- The double nearest to `n / d`, a half going to the even mantissa; infinite when the
nearest 53 bit number has too large an exponent. -/
def ofRatio (negative : Bool) (n d : Nat) : Binary64 :=
  let q := exponentFor n d
  let (a, b) := inUnits n d q
  let m := nearestEven a b
  let (m, q) := if m = Nat.pow 2 53 then (Nat.pow 2 52, q + 1) else (m, q)
  if canonical : Canonical m q then .finite negative m q canonical else .infinite negative

/-- The double nearest to a rational number; 0 has a positive sign. -/
def ofRat (r : Rat) : Binary64 :=
  if r = 0 then zero false else ofRatio (r.num < 0) r.num.natAbs r.den

def ofNat (n : Nat) : Binary64 :=
  ofRat n

def ofInt (i : Int) : Binary64 :=
  ofRat i

/-! ## Order -/

/-- `x < y` as numbers. -/
def lt : Binary64 → Binary64 → Bool
  | .nan, _ => false
  | _, .nan => false
  | .infinite negative, .infinite negative' => negative && !negative'
  | .infinite negative, _ => negative
  | _, .infinite negative => !negative
  | x, y => decide (x.toRat < y.toRat)

/-- `x ≤ y` as numbers. -/
def le (x y : Binary64) : Bool :=
  match x, y with
  | .nan, _ => false
  | _, .nan => false
  | x, y => !lt y x

/-! ## Arithmetic -/

/-- The opposite number. -/
def neg : Binary64 → Binary64
  | .nan => .nan
  | .infinite negative => .infinite (!negative)
  | .finite negative m q canonical => .finite (!negative) m q canonical

/-- The absolute value. -/
def abs : Binary64 → Binary64
  | .nan => .nan
  | .infinite _ => .infinite false
  | .finite _ m q canonical => .finite false m q canonical

/-- The rounded sum. Two zeros of one sign keep it; every other exact zero is positive. -/
def add : Binary64 → Binary64 → Binary64
  | .nan, _ => .nan
  | _, .nan => .nan
  | .infinite negative, .infinite negative' =>
    if negative = negative' then .infinite negative else .nan
  | .infinite negative, _ => .infinite negative
  | _, .infinite negative => .infinite negative
  | x, y =>
    if x.toRat = 0 ∧ y.toRat = 0 then zero (x.isNegative && y.isNegative)
    else ofRat (x.toRat + y.toRat)

/-- The rounded difference. -/
def sub (x y : Binary64) : Binary64 :=
  add x (neg y)

/-- A rounded value whose sign is given apart, for results that may be zero. -/
def signed (negative : Bool) (r : Rat) : Binary64 :=
  if r = 0 then zero negative else ofRatio negative r.num.natAbs r.den

/-- The rounded product. -/
def mul (x y : Binary64) : Binary64 :=
  let negative := x.isNegative != y.isNegative
  match x, y with
  | .nan, _ => .nan
  | _, .nan => .nan
  | .infinite _, .infinite _ => .infinite negative
  | .infinite _, y => if y.toRat = 0 then .nan else .infinite negative
  | x, .infinite _ => if x.toRat = 0 then .nan else .infinite negative
  | x, y => signed negative (x.toRat * y.toRat)

/-- The rounded quotient. -/
def div (x y : Binary64) : Binary64 :=
  let negative := x.isNegative != y.isNegative
  match x, y with
  | .nan, _ => .nan
  | _, .nan => .nan
  | .infinite _, .infinite _ => .nan
  | .infinite _, _ => .infinite negative
  | _, .infinite _ => zero negative
  | x, y =>
    if y.toRat = 0 then if x.toRat = 0 then .nan else .infinite negative
    else signed negative (x.toRat / y.toRat)

/-! ## Whole neighbours -/

/-- The least whole number not below `x`. -/
def ceiling : Binary64 → Binary64
  | x@(.finite negative _ _ _) => signed negative (x.toRat.ceil : Int)
  | x => x

/-- The whole number nearest to `x`, a half going away from zero. -/
def roundHalfAway : Binary64 → Binary64
  | .finite negative m q _ =>
    signed negative ((magnitude m q + mkRat 1 2).floor : Int)
  | x => x

end Binary64

end PagedQuery
