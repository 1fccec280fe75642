import Mathlib.Data.List.TakeWhile
import PagedQuery.Proofs.Binary64.Shortest
import PagedQuery.Proofs.Statement.Lexing

/-!
# Texts of numbers

Whole numbers and finite doubles are written in digits with at most one point
among them, after a minus or not, so each is read as one number.

* `isNumber_toString_int`, `Binary64.isNumber_toString`: the texts of numbers;
* `Binary64.ofDigitChars_stripZeros`: digits without the zeros at their end;
* `Binary64.unsignedText`: what is written of a double after its sign.
-/

namespace PagedQuery

/-! ## Texts in digits -/

theorem Run.ofHead?_of_isDigit {c : Char} (h : c.isDigit = true) : ofHead? c = some .number := by
  have hletter : ¬ (c.isAlpha || c = '_') = true := by
    intro hletter
    have hrange := Text.range_of_isDigit h
    have hletters : (65 ≤ c.val.toNat ∧ c.val.toNat ≤ 90) ∨ (97 ≤ c.val.toNat ∧ c.val.toNat ≤ 122) ∨
        c.val.toNat = 95 := by
      simp only [Bool.or_eq_true, decide_eq_true_eq] at hletter
      rcases hletter with halpha | rfl
      · rcases (Bool.or_eq_true _ _).mp halpha with hupper | hlower
        · obtain ⟨hfrom, hto⟩ := of_decide_eq_true hupper
          exact .inl ⟨UInt32.le_iff_toNat_le.mp hfrom, UInt32.le_iff_toNat_le.mp hto⟩
        · exact .inr (.inl (Text.range_of_isLower hlower))
      · exact .inr (.inr rfl)
    omega
  rw [ofHead?, if_neg hletter, if_pos h]

/-- A digit, and digits and points after it. -/
theorem fits_number {c : Char} {rest : List Char} (hc : c.isDigit = true)
    (hrest : ∀ d ∈ rest, d.isDigit = true ∨ d = '.') : Run.number.fits (c :: rest) = true := by
  refine Run.fits_eq_true_iff.mpr ⟨c, rest, rfl, Run.ofHead?_of_isDigit hc, ?_⟩
  intro d hd
  simpa [Run.continues] using hrest d hd

theorem fits_number_of_digits {digits : List Char} (hne : digits ≠ [])
    (h : ∀ d ∈ digits, d.isDigit = true) : Run.number.fits digits = true := by
  obtain ⟨c, rest, rfl⟩ := List.exists_cons_of_ne_nil hne
  exact fits_number (h c List.mem_cons_self) fun d hd => .inl (h d (List.mem_cons_of_mem _ hd))

theorem isNumber_of_fits {text : List Char} (h : Run.number.fits text = true) :
    isNumber text = true := by
  unfold isNumber
  split
  · cases h
  · exact h

theorem Nat.fits_toDigits (n : Nat) : Run.number.fits (Nat.toDigits 10 n) = true :=
  fits_number_of_digits Nat.toDigits_ne_nil fun _ hd =>
    Nat.isDigit_of_mem_toDigits (by decide) (by decide) hd

/-- The text of a whole number is read as one. -/
theorem isNumber_toString_int (i : Int) : isNumber (toString i).toList = true := by
  change isNumber i.repr.toList = true
  rw [Int.repr_eq_if]
  split
  · rw [Nat.toList_repr]
    exact isNumber_of_fits (Nat.fits_toDigits _)
  · rw [String.toList_append, Nat.toList_repr]
    exact Nat.fits_toDigits _

/-! ## Texts of doubles -/

namespace Binary64

variable {digits : List Char} {point : Int}

theorem fits_layout (h : ∀ d ∈ digits, d.isDigit = true) (hne : digits ≠ []) :
    Run.number.fits (layout .plain digits point) = true := by
  have hzeros (n : Nat) : ∀ d ∈ List.replicate n '0', d.isDigit = true := by
    intro d hd
    rw [List.eq_of_mem_replicate hd]
    rfl
  unfold layout
  split
  · rw [if_neg (by decide), List.append_nil]
    refine fits_number_of_digits (List.append_ne_nil_of_left_ne_nil hne _) fun d hd => ?_
    exact (List.mem_append.mp hd).elim (h d) (hzeros _ d)
  · split
    · rename_i hpoint
      obtain ⟨c, rest, rfl⟩ := List.exists_cons_of_ne_nil hne
      obtain ⟨n, hn⟩ : ∃ n, point.toNat = n + 1 := ⟨point.toNat - 1, by omega⟩
      rw [hn, List.take_succ_cons, List.drop_succ_cons, List.cons_append]
      refine fits_number (h c List.mem_cons_self) fun d hd => ?_
      rcases List.mem_append.mp hd with hd | hd
      · exact .inl (h d (List.mem_cons_of_mem _ (List.mem_of_mem_take hd)))
      · rcases List.mem_cons.mp hd with rfl | hd
        · exact .inr rfl
        · exact .inl (h d (List.mem_cons_of_mem _ (List.mem_of_mem_drop hd)))
    · refine fits_number rfl fun d hd => ?_
      rcases List.mem_cons.mp hd with rfl | hd
      · exact .inr rfl
      · exact .inl ((List.mem_append.mp hd).elim (hzeros _ d) (h d))

/-- The zeros at the end are counted and left out. -/
theorem eq_stripZeros_append (digits : List Char) :
    digits = (stripZeros digits).1 ++ List.replicate (stripZeros digits).2 '0' := by
  have hsplit : digits = (digits.reverse.dropWhile (· = '0')).reverse ++
      (digits.reverse.takeWhile (· = '0')).reverse := by
    rw [← List.reverse_append, List.takeWhile_append_dropWhile, List.reverse_reverse]
  have hzeros : (digits.reverse.takeWhile (· = '0')).reverse =
      List.replicate (stripZeros digits).2 '0' := by
    refine List.eq_replicate_iff.mpr ⟨?_, fun c hc => ?_⟩
    · have hlength := congrArg List.length hsplit
      rw [List.length_append] at hlength
      simp only [stripZeros]
      omega
    · have hzero := List.mem_takeWhile_imp (List.mem_reverse.mp hc)
      exact of_decide_eq_true hzero
  rw [← hzeros]
  exact hsplit

/-- The digits of a whole number without the zeros at their end. -/
theorem ofDigitChars_stripZeros (n : Nat) :
    Nat.ofDigitChars 10 (stripZeros (Nat.toDigits 10 n)).1 0 *
      10 ^ (stripZeros (Nat.toDigits 10 n)).2 = n := by
  have hdigits := Nat.ofDigitChars_toDigits (b := 10) (n := n) (by decide) (by decide)
  rw [eq_stripZeros_append (Nat.toDigits 10 n), Nat.ofDigitChars_append,
    Nat.ofDigitChars_replicate_zero, mul_comm] at hdigits
  exact hdigits

theorem isDigit_of_mem_stripZeros {n : Nat} :
    ∀ d ∈ (stripZeros (Nat.toDigits 10 n)).1, d.isDigit = true := by
  intro d hd
  rw [stripZeros, List.mem_reverse] at hd
  have hmem := (List.dropWhile_suffix _).subset hd
  exact Nat.isDigit_of_mem_toDigits (by decide) (by decide) (List.mem_reverse.mp hmem)

/-- Something is left of the digits of a double other than zero. -/
theorem stripZeros_shortest_ne_nil {m : Nat} {q : Int} (hm : 0 < m) (h : Canonical m q) :
    (stripZeros (Nat.toDigits 10 (shortest m q).1)).1 ≠ [] := by
  intro hnil
  have hdigits := ofDigitChars_stripZeros (shortest m q).1
  rw [hnil, Nat.ofDigitChars_nil, zero_mul] at hdigits
  have hback := readsBack_shortest hm h
  rw [← hdigits, Nat.cast_zero, zero_mul, readsBack_zero h.normalized hm] at hback
  cases hback

/-- What is written of a finite double after its sign. -/
def unsignedText (m : Nat) (q : Int) : List Char :=
  if m = 0 then layout .plain ['0'] 1
  else
    let kept := stripZeros (Nat.toDigits 10 (shortest m q).1)
    layout .plain kept.1 (kept.1.length + (shortest m q).2 + kept.2)

theorem toList_toString (negative : Bool) {m : Nat} {q : Int} (canonical : Canonical m q) :
    (toString (finite negative m q canonical)).toList =
      if negative then '-' :: unsignedText m q else unsignedText m q :=
  String.toList_ofList

theorem fits_unsignedText {m : Nat} {q : Int} (canonical : Canonical m q) :
    Run.number.fits (unsignedText m q) = true := by
  unfold unsignedText
  split
  · exact fits_layout (by simp) (by simp)
  · exact fits_layout isDigit_of_mem_stripZeros (stripZeros_shortest_ne_nil (by omega) canonical)

/-- The text of a finite double is read as one number. -/
theorem isNumber_toString {x : Binary64} (h : x.isFinite = true) :
    isNumber (toString x).toList = true := by
  cases x with
  | nan => cases h
  | infinite negative => cases h
  | finite negative m q canonical =>
    rw [toList_toString]
    split
    · exact fits_unsignedText canonical
    · exact isNumber_of_fits (fits_unsignedText canonical)

end Binary64

end PagedQuery
