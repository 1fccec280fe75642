import PagedQuery.Proofs.Statement.Numbers

/-!
# Texts of doubles

A finite double is read back from its text: the digits stand for a number in its
interval, wherever the point is put among them and whatever zeros are put around
them. So different doubles have different texts.

* `Binary64.ofDecimal_of_readsBack`: decimal numbers in the interval of a double;
* `Binary64.readUnsigned?_layout`: what is read where digits are laid out;
* `Binary64.read?_toString`, `Binary64.eq_of_toString_eq`: the text of a finite double.
-/

namespace PagedQuery.Binary64

variable {m n : Nat} {q e : Int} {digits whole fraction : List Char} {point : Int}

/-! ## Decimal numbers -/

/-- A decimal number in the interval of a double is far above the numbers that are zero at
sight. -/
theorem le_of_readsBack (hm : 0 < m) (canonical : Canonical m q) (he : e ≤ 0)
    (h : readsBack m q (n * (10 : Rat) ^ e) = true) : -400 ≤ (n.log2 : Int) + 1 + e := by
  have hleast : (2 : Rat) ^ (-1075 : Int) ≤ n * (10 : Rat) ^ e := by
    have hmagnitude := two_zpow_le_magnitude hm q
    have hreach := reach_le m q
    have hlow := (readsBack_iff.mp h).1.1
    rw [magnitude_eq] at hmagnitude
    calc (2 : Rat) ^ (-1075 : Int) ≤ (2 : Rat) ^ (q - 1) :=
          zpow_le_zpow_right₀ (by norm_num) (by have := canonical.2.1; omega)
      _ = (2 : Rat) ^ q - (2 : Rat) ^ (q - 1) := by
        rw [two_zpow_eq_two_mul q]
        ring
      _ ≤ n * (10 : Rat) ^ e := by linarith
  have hpower : (10 : Rat) ^ e ≤ (2 : Rat) ^ (3 * e) := by
    obtain ⟨j, hj⟩ := Int.eq_ofNat_of_zero_le (Int.neg_nonneg_of_nonpos he)
    rw [zpow_mul, ← neg_neg e, hj, zpow_neg, zpow_neg]
    exact inv_anti₀ (by positivity) (zpow_le_zpow_left₀ (by omega) (by norm_num) (by norm_num))
  have hdigits : (n : Rat) < (2 : Rat) ^ ((n.log2 : Int) + 1) := by
    exact_mod_cast Nat.lt_log2_self
  have hlt : (2 : Rat) ^ (-1075 : Int) < (2 : Rat) ^ ((n.log2 : Int) + 1 + 3 * e) := by
    rw [zpow_add₀ (by norm_num)]
    calc (2 : Rat) ^ (-1075 : Int) ≤ n * (10 : Rat) ^ e := hleast
      _ < (2 : Rat) ^ ((n.log2 : Int) + 1) * (10 : Rat) ^ e := by gcongr
      _ ≤ (2 : Rat) ^ ((n.log2 : Int) + 1) * (2 : Rat) ^ (3 * e) := by gcongr
  have hexp := (zpow_lt_zpow_iff_right₀ (by norm_num)).mp hlt
  omega

/-- A decimal number in the interval of a double is read as that double. -/
theorem ofDecimal_of_readsBack (negative : Bool) (hm : 0 < m) (canonical : Canonical m q)
    (he : e ≤ 0) (h : readsBack m q (n * (10 : Rat) ^ e) = true) :
    ofDecimal negative n e = finite negative m q canonical := by
  have hn : n ≠ 0 := by
    rintro rfl
    rw [Nat.cast_zero, zero_mul, readsBack_zero canonical.normalized hm] at h
    cases h
  have hlow := le_of_readsBack hm canonical he h
  obtain ⟨j, hj⟩ := Int.eq_ofNat_of_zero_le (Int.neg_nonneg_of_nonpos he)
  obtain rfl : e = -(j : Int) := by omega
  rw [zpow_neg, zpow_natCast, ← div_eq_mul_inv] at h
  rw [ofDecimal, if_neg hn, if_neg (by omega), if_neg (by omega)]
  split
  · obtain rfl : j = 0 := by omega
    exact ofRatio_of_readsBack (by simpa [Nat.pos_iff_ne_zero] using hn) (by decide) negative
      canonical (by simpa using h)
  · rw [neg_neg, Int.toNat_natCast]
    exact ofRatio_of_readsBack (Nat.pos_of_ne_zero hn) (Nat.pow_pos (by decide)) negative canonical
      (by exact_mod_cast h)

/-! ## Reading digits -/

theorem readUnsigned?_whole (negative : Bool) (h : ∀ d ∈ whole, d.isDigit = true)
    (hne : whole ≠ []) :
    readUnsigned? negative whole = some (ofDecimal negative (digitsValue whole) 0) := by
  have htake : whole.takeWhile Char.isDigit = whole := List.takeWhile_eq_self_iff.mpr h
  have hdrop : whole.dropWhile Char.isDigit = [] := List.dropWhile_eq_nil_iff.mpr h
  rw [readUnsigned?, htake, hdrop]
  simp [splitFraction, readExponent?, hne]

theorem readUnsigned?_fraction (negative : Bool) (h : ∀ d ∈ whole, d.isDigit = true)
    (h' : ∀ d ∈ fraction, d.isDigit = true) (hne : whole ≠ []) :
    readUnsigned? negative (whole ++ '.' :: fraction) =
      some (ofDecimal negative (digitsValue (whole ++ fraction)) (-(fraction.length : Int))) := by
  have htake : (whole ++ '.' :: fraction).takeWhile Char.isDigit = whole := by
    rw [List.takeWhile_append_of_pos h, List.takeWhile_cons_of_neg (by decide), List.append_nil]
  have hdrop : (whole ++ '.' :: fraction).dropWhile Char.isDigit = '.' :: fraction := by
    rw [List.dropWhile_append_of_pos h, List.dropWhile_cons_of_neg (by decide)]
  have htake' : fraction.takeWhile Char.isDigit = fraction := List.takeWhile_eq_self_iff.mpr h'
  have hdrop' : fraction.dropWhile Char.isDigit = [] := List.dropWhile_eq_nil_iff.mpr h'
  rw [readUnsigned?, htake, hdrop, splitFraction, htake', hdrop']
  simp [readExponent?, hne]

/-- Digits are read as the number that they stand for, wherever the point is put. -/
theorem readUnsigned?_layout (negative : Bool) (h : ∀ d ∈ digits, d.isDigit = true)
    (hne : digits ≠ []) (point : Int) :
    ∃ (n : Nat) (e : Int), e ≤ 0 ∧
      readUnsigned? negative (layout .plain digits point) = some (ofDecimal negative n e) ∧
      (n : Rat) * (10 : Rat) ^ e =
        Nat.ofDigitChars 10 digits 0 * (10 : Rat) ^ (point - digits.length) := by
  have hzeros (n : Nat) : ∀ d ∈ List.replicate n '0', d.isDigit = true := by
    intro d hd
    rw [List.eq_of_mem_replicate hd]
    rfl
  unfold layout
  split
  · rename_i hlength
    obtain ⟨j, hj⟩ := Int.eq_ofNat_of_zero_le (Int.sub_nonneg_of_le hlength)
    rw [if_neg (by decide), List.append_nil, hj, Int.toNat_natCast]
    refine ⟨_, 0, le_rfl, readUnsigned?_whole negative (fun d hd => ?_) (by simp [hne]), ?_⟩
    · exact (List.mem_append.mp hd).elim (h d) (hzeros _ d)
    · rw [digitsValue, Nat.ofDigitChars_append, Nat.ofDigitChars_replicate_zero, zpow_zero]
      push_cast
      rw [zpow_natCast]
      ring
  · rename_i hlength
    split
    · rename_i hpoint
      refine ⟨_, _, ?_, readUnsigned?_fraction negative (fun d hd => h d (List.mem_of_mem_take hd))
        (fun d hd => h d (List.mem_of_mem_drop hd)) ?_, ?_⟩
      · omega
      · rw [Ne, List.take_eq_nil_iff, not_or]
        exact ⟨by omega, hne⟩
      · rw [List.take_append_drop, digitsValue, List.length_drop]
        congr 2
        omega
    · rename_i hpoint
      obtain ⟨j, hj⟩ := Int.eq_ofNat_of_zero_le (Int.neg_nonneg_of_nonpos (not_lt.mp hpoint))
      rw [hj, Int.toNat_natCast]
      have hfraction : ∀ d ∈ List.replicate j '0' ++ digits, d.isDigit = true :=
        fun d hd => (List.mem_append.mp hd).elim (hzeros _ d) (h d)
      have hwhole : ∀ d ∈ ['0'], d.isDigit = true := by simp
      refine ⟨_, _, ?_, readUnsigned?_fraction negative hwhole hfraction (by simp), ?_⟩
      · omega
      · change ((Nat.ofDigitChars 10 (List.replicate (j + 1) '0' ++ digits) 0 : Nat) : Rat) *
          (10 : Rat) ^ (-((List.replicate j '0' ++ digits).length : Int)) = _
        rw [Nat.ofDigitChars_append, Nat.ofDigitChars_replicate_zero, mul_zero, List.length_append,
          List.length_replicate]
        congr 2
        push_cast
        omega

/-! ## Reading texts -/

theorem isDigit_of_fits {c : Char} {rest : List Char} (h : Run.number.fits (c :: rest) = true) :
    c.isDigit = true := by
  obtain ⟨c, rest, heq, hhead, -⟩ := Run.fits_eq_true_iff.mp h
  obtain ⟨rfl, rfl⟩ := List.cons.inj heq
  unfold Run.ofHead? at hhead
  split at hhead
  · cases hhead
  split at hhead
  · assumption
  split at hhead <;> cases hhead

/-- What begins with a digit is no word, and its sign is what stands before it. -/
theorem read?_of_fits {body : List Char} (negative : Bool) (h : Run.number.fits body = true) :
    read? (if negative then '-' :: body else body) = readUnsigned? negative body := by
  obtain ⟨c, rest, rfl⟩ : ∃ c rest, body = c :: rest := by
    refine List.exists_cons_of_ne_nil ?_
    rintro rfl
    cases h
  have hdigit := isDigit_of_fits h
  have hrange := Text.range_of_isDigit hdigit
  have hsign : splitSign (if negative then '-' :: c :: rest else c :: rest) =
      (negative, c :: rest) := by
    cases negative with
    | true => rfl
    | false =>
      simp only [Bool.false_eq_true, if_false]
      unfold splitSign
      split
      · rename_i heq
        rw [(List.cons.inj heq).1] at hdigit
        cases hdigit
      · rename_i heq
        rw [(List.cons.inj heq).1] at hdigit
        cases hdigit
      · rfl
  have hlower : c.toLower = c := Text.toLower_eq_self (by omega)
  have hword (d : Char) (word : List Char) (hletter : d.isDigit = false) :
      (c :: rest).map Char.toLower ≠ d :: word := by
    intro heq
    have hhead := (List.cons.inj heq).1
    rw [hlower] at hhead
    rw [hhead, hletter] at hdigit
    cases hdigit
  unfold read?
  rw [hsign]
  dsimp only
  rw [if_neg, if_neg]
  · exact hword 'n' _ (by decide)
  · rw [not_or]
    exact ⟨hword 'i' _ (by decide), hword 'i' _ (by decide)⟩

theorem readUnsigned?_unsignedText (negative : Bool) (canonical : Canonical m q) :
    readUnsigned? negative (unsignedText m q) = some (finite negative m q canonical) := by
  rcases Nat.eq_zero_or_pos m with rfl | hm
  · obtain rfl : q = -1074 := canonical.2.2.2.resolve_left (Nat.not_succ_le_zero _)
    rfl
  · have hne := stripZeros_shortest_ne_nil hm canonical
    have hdigits := ofDigitChars_stripZeros (shortest m q).1
    have hisDigit := isDigit_of_mem_stripZeros (n := (shortest m q).1)
    have hback := readsBack_shortest hm canonical
    rw [unsignedText, if_neg hm.ne']
    generalize stripZeros (Nat.toDigits 10 (shortest m q).1) = kept at hne hdigits hisDigit ⊢
    obtain ⟨n, e, he, hread, hvalue⟩ := readUnsigned?_layout negative hisDigit hne
      (kept.1.length + (shortest m q).2 + kept.2)
    have hsame : (n : Rat) * (10 : Rat) ^ e = (shortest m q).1 * tenPow (shortest m q).2 := by
      rw [hvalue, ← hdigits, tenPow_eq, show (kept.1.length : Int) + (shortest m q).2 + kept.2 -
        kept.1.length = kept.2 + (shortest m q).2 by ring, zpow_add₀ (by norm_num), zpow_natCast]
      push_cast
      ring
    rw [hread, ofDecimal_of_readsBack negative hm canonical he (hsame ▸ hback)]

/-- **The text of a finite double is read as that double.** -/
theorem read?_toString {x : Binary64} (h : x.isFinite = true) :
    read? (toString x).toList = some x := by
  cases x with
  | nan => cases h
  | infinite negative => cases h
  | finite negative m q canonical =>
    rw [toList_toString, read?_of_fits negative (fits_unsignedText canonical),
      readUnsigned?_unsignedText]

/-- Different doubles have different texts. -/
theorem eq_of_toString_eq {x y : Binary64} (hx : x.isFinite = true) (hy : y.isFinite = true)
    (h : toString x = toString y) : x = y := by
  have hread := read?_toString hx
  rw [h, read?_toString hy] at hread
  exact (Option.some.inj hread).symm

end PagedQuery.Binary64
