/-!
# Numbers in text

* `Text.pad`: a number with leading zeros up to a width;
* `Text.takeNumber?`: the number that a text begins with;
* `Text.readInt64?`: a whole text as a 64 bit integer;
* `Text.range_of_isDigit`, `Text.range_of_isLower`: where digits and small letters stand.
-/

namespace PagedQuery.Text

/-- The decimal digits of a number, with leading zeros up to `width` places. -/
def pad (width n : Nat) : List Char :=
  let digits := Nat.toDigits 10 n
  List.replicate (width - digits.length) '0' ++ digits

/-- The number that a text begins with, in at least `least` and at most `most` digits, and
the text after it. Digits past `most` are left over. -/
def takeNumber? (least most : Nat) (text : List Char) : Option (Nat × List Char) :=
  let digits := (text.takeWhile Char.isDigit).take most
  if digits.length < least then none
  else some (Nat.ofDigitChars 10 digits 0, text.drop digits.length)

/-- An optional sign and at least one digit, within 64 signed bits. -/
def readInt64? (text : List Char) : Option Int :=
  let (negative, digits) := match text with
    | '-' :: rest => (true, rest)
    | '+' :: rest => (false, rest)
    | digits => (false, digits)
  if digits = [] ∨ !digits.all Char.isDigit then none
  else
    let magnitude := Nat.ofDigitChars 10 digits 0
    if negative then if magnitude ≤ Nat.pow 2 63 then some (-magnitude) else none
    else if magnitude < Nat.pow 2 63 then some magnitude else none

/-! ## Ranges of characters -/

variable {c : Char}

theorem range_of_isDigit (h : c.isDigit = true) : 48 ≤ c.val.toNat ∧ c.val.toNat ≤ 57 := by
  obtain ⟨hfrom, hto⟩ := (Bool.and_eq_true _ _).mp h
  exact ⟨UInt32.le_iff_toNat_le.mp (of_decide_eq_true hfrom),
    UInt32.le_iff_toNat_le.mp (of_decide_eq_true hto)⟩

theorem range_of_isLower (h : c.isLower = true) : 97 ≤ c.val.toNat ∧ c.val.toNat ≤ 122 := by
  obtain ⟨hfrom, hto⟩ := (Bool.and_eq_true _ _).mp h
  exact ⟨UInt32.le_iff_toNat_le.mp (of_decide_eq_true hfrom),
    UInt32.le_iff_toNat_le.mp (of_decide_eq_true hto)⟩

/-- Only capital letters are changed to lower case. -/
theorem toLower_eq_self (h : c.val.toNat < 65 ∨ 90 < c.val.toNat) : c.toLower = c := by
  refine dif_neg ?_
  rintro ⟨hfrom, hto⟩
  have hleast : 65 ≤ c.val.toNat := UInt32.le_iff_toNat_le.mp hfrom
  have hmost : c.val.toNat ≤ 90 := UInt32.le_iff_toNat_le.mp hto
  omega

end PagedQuery.Text
