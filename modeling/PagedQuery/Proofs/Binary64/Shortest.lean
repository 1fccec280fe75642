import PagedQuery.Binary64.Decimal
import PagedQuery.Proofs.Binary64.Rounding

/-!
# Shortest digits

Around every double is an interval of numbers that are rounded to it, and these
intervals do not overlap. The digits that are written for a double stand for a
number in its interval: a grid of seventeen digits is finer than the interval is
wide, and coarser grids are taken only if they have a number in it.

* `Binary64.readsBack_iff`: the numbers that are rounded to a double;
* `Binary64.not_readsBack_of_lt`: no number is rounded to two doubles;
* `Binary64.ofRatio_of_readsBack`, `Binary64.isFinite_ofRatio`: what a ratio is rounded to;
* `Binary64.tenPow_decade_le`: the first guess of the grid;
* `Binary64.readsBack_shortest`: the digits of a double read back.
-/

namespace PagedQuery.Binary64

variable {m m' : Nat} {q q' k : Int} {r : Rat}

/-! ## Intervals -/

/-- A mantissa with its leading bit, or with the least exponent. There is no greatest one. -/
def Normalized (m : Nat) (q : Int) : Prop :=
  m < Nat.pow 2 53 ∧ -1074 ≤ q ∧ (Nat.pow 2 52 ≤ m ∨ q = -1074)

theorem Canonical.normalized (h : Canonical m q) : Normalized m q :=
  ⟨h.1, h.2.1, h.2.2.2⟩

/-- How far below a double the numbers reach that are rounded to it. -/
def reach (m : Nat) (q : Int) : Rat :=
  if m = Nat.pow 2 52 ∧ -1074 < q then (2 : Rat) ^ (q - 2) else (2 : Rat) ^ (q - 1)

theorem two_zpow_eq_two_mul (q : Int) : (2 : Rat) ^ q = 2 * (2 : Rat) ^ (q - 1) := by
  rw [zpow_sub_one₀ (by norm_num)]
  field_simp

theorem reach_le (m : Nat) (q : Int) : reach m q ≤ (2 : Rat) ^ (q - 1) := by
  unfold reach
  split
  · exact zpow_le_zpow_right₀ (by norm_num) (by omega)
  · exact le_rfl

/-- The numbers that are rounded to a double. The ends of the interval are among them if its
mantissa is even. -/
theorem readsBack_iff : readsBack m q r = true ↔
    (m * (2 : Rat) ^ q - reach m q ≤ r ∧ r ≤ m * (2 : Rat) ^ q + (2 : Rat) ^ (q - 1)) ∧
      (m % 2 = 1 → m * (2 : Rat) ^ q - reach m q ≠ r ∧
        r ≠ m * (2 : Rat) ^ q + (2 : Rat) ^ (q - 1)) := by
  have hlow : (roundingInterval m q).1 = m * (2 : Rat) ^ q - reach m q := by
    simp only [roundingInterval, reach, magnitude_eq, twoPow_eq]
  have hhigh : (roundingInterval m q).2 = m * (2 : Rat) ^ q + (2 : Rat) ^ (q - 1) := by
    simp only [roundingInterval, magnitude_eq, twoPow_eq]
  unfold readsBack
  change (if m % 2 = 0 then
      decide ((roundingInterval m q).1 ≤ r ∧ r ≤ (roundingInterval m q).2)
    else decide ((roundingInterval m q).1 < r ∧ r < (roundingInterval m q).2)) = true ↔ _
  rw [hlow, hhigh]
  split
  · rename_i heven
    rw [decide_eq_true_iff, and_iff_left (fun hodd => by omega)]
  · rename_i hodd
    rw [decide_eq_true_iff, lt_iff_le_and_ne, lt_iff_le_and_ne]
    have hodd' : m % 2 = 1 := by omega
    simp only [hodd', forall_const]
    exact and_and_and_comm

/-- The interval of a double above the least exponents begins at the interval of the greatest
double with the exponent before, or after it. -/
theorem le_low (h : Normalized m q) (hq : -1074 < q) :
    ((Nat.pow 2 54 - 1 : Nat) : Rat) * (2 : Rat) ^ (q - 2) ≤ m * (2 : Rat) ^ q - reach m q := by
  have hquarter : (0 : Rat) < (2 : Rat) ^ (q - 2) := by positivity
  have hhalf : (2 : Rat) ^ (q - 1) = 2 * (2 : Rat) ^ (q - 2) := by
    rw [two_zpow_eq_two_mul (q - 1), sub_sub]
    rfl
  have hm : Nat.pow 2 52 ≤ m := h.2.2.resolve_right (by omega)
  rw [two_zpow_eq_two_mul q, hhalf, reach]
  split
  · rename_i hpow
    rw [hpow.1]
    norm_num
    linarith
  · rename_i hpow
    have hlarge : Nat.pow 2 52 + 1 ≤ m := by
      have hne : m ≠ Nat.pow 2 52 := fun heq => hpow ⟨heq, hq⟩
      omega
    have hcast : ((Nat.pow 2 52 + 1 : Nat) : Rat) ≤ m := by exact_mod_cast hlarge
    have hscaled := mul_le_mul_of_nonneg_right hcast hquarter.le
    rw [hhalf]
    norm_num at hscaled ⊢
    linarith

/-- No number is rounded to two doubles: the lesser one's interval ends where the greater one's
begins, or before that, and an end that they share belongs to the even one. -/
theorem not_readsBack_of_lt (h : Normalized m q) (h' : Normalized m' q')
    (hlt : q < q' ∨ q = q' ∧ m < m') (hback : readsBack m q r = true) :
    readsBack m' q' r = false := by
  rw [← Bool.not_eq_true]
  intro hback'
  obtain ⟨⟨-, hhigh⟩, hodd⟩ := readsBack_iff.mp hback
  obtain ⟨⟨hlow, -⟩, hodd'⟩ := readsBack_iff.mp hback'
  have hunit : (0 : Rat) < (2 : Rat) ^ (q - 1) := by positivity
  have htop : m * (2 : Rat) ^ q + (2 : Rat) ^ (q - 1) = (2 * m + 1 : Nat) * (2 : Rat) ^ (q - 1) := by
    rw [two_zpow_eq_two_mul q]
    push_cast
    ring
  rw [htop] at hhigh hodd
  rcases hlt with hexp | ⟨rfl, hmantissa⟩
  · have hbottom := le_low h' (by have := h.2.1; omega)
    have hunits : (2 : Rat) ^ (q - 1) ≤ (2 : Rat) ^ (q' - 2) :=
      zpow_le_zpow_right₀ (by norm_num) (by omega)
    have hbelow : ((Nat.pow 2 54 - 1 : Nat) : Rat) * (2 : Rat) ^ (q - 1) ≤ r := by
      refine le_trans ?_ (hbottom.trans hlow)
      gcongr
    have hle : Nat.pow 2 54 - 1 ≤ 2 * m + 1 := by
      exact_mod_cast le_of_mul_le_mul_right (hbelow.trans hhigh) hunit
    -- the lesser one has all bits, so it is odd
    have hm : 2 * m + 1 = Nat.pow 2 54 - 1 := by
      have := h.1
      norm_num at this hle ⊢
      omega
    rw [hm] at hhigh hodd
    refine (hodd ?_).2 (hhigh.antisymm hbelow)
    norm_num at hm
    omega
  · have hreach := reach_le m' q
    have hbelow : ((2 * m' : Nat) : Rat) * (2 : Rat) ^ (q - 1) - (2 : Rat) ^ (q - 1) ≤ r := by
      refine le_trans ?_ hlow
      rw [two_zpow_eq_two_mul q]
      push_cast
      linarith
    have hle : 2 * m' ≤ 2 * m + 1 + 1 := by
      have hscaled : ((2 * m' : Nat) : Rat) * (2 : Rat) ^ (q - 1) ≤
          ((2 * m + 1 + 1 : Nat) : Rat) * (2 : Rat) ^ (q - 1) := by
        push_cast at hbelow hhigh ⊢
        linarith
      exact_mod_cast le_of_mul_le_mul_right hscaled hunit
    obtain rfl : m' = m + 1 := by omega
    have heq : r = ((2 * m + 1 : Nat) : Rat) * (2 : Rat) ^ (q - 1) := by
      refine hhigh.antisymm (le_trans (le_of_eq ?_) hbelow)
      push_cast
      ring
    rcases Nat.mod_two_eq_zero_or_one m with heven | hm
    · have hm' : (m + 1) % 2 = 1 := by omega
      have hreach' : reach (m + 1) q = (2 : Rat) ^ (q - 1) := by
        rw [reach, if_neg]
        rintro ⟨hpow, -⟩
        norm_num at hpow
        omega
      refine (hodd' hm').1 ?_
      rw [hreach', heq, two_zpow_eq_two_mul q]
      push_cast
      ring
    · exact (hodd hm).2 heq

/-- A number is rounded to one double. -/
theorem eq_of_readsBack (h : Normalized m q) (h' : Normalized m' q')
    (hback : readsBack m q r = true) (hback' : readsBack m' q' r = true) : m = m' ∧ q = q' := by
  have hnot : ¬ (q < q' ∨ q = q' ∧ m < m') := fun hlt => by
    rw [not_readsBack_of_lt h h' hlt hback] at hback'
    cases hback'
  have hnot' : ¬ (q' < q ∨ q' = q ∧ m' < m) := fun hlt => by
    rw [not_readsBack_of_lt h' h hlt hback'] at hback
    cases hback
  omega

/-- Zero is no other double. -/
theorem readsBack_zero (h : Normalized m q) (hm : 0 < m) : readsBack m q 0 = false := by
  rw [← Bool.not_eq_true]
  intro hback
  have hzero : readsBack 0 (-1074) 0 = true := by decide +kernel
  obtain ⟨rfl, -⟩ := eq_of_readsBack h ⟨by decide, le_rfl, .inr rfl⟩ hback hzero
  exact absurd hm (lt_irrefl 0)

/-! ## Rounding -/

section

variable {n d : Nat}

/-- A ratio is at most a half away from the whole number it is rounded to, and less than that if
the whole number is odd. -/
theorem nearestEven_spec {a b : Nat} (hb : 0 < b) :
    (2 * nearestEven a b * b ≤ 2 * a + b ∧ 2 * a ≤ (2 * nearestEven a b + 1) * b) ∧
      (nearestEven a b % 2 = 1 →
        2 * nearestEven a b * b ≠ 2 * a + b ∧ 2 * a ≠ (2 * nearestEven a b + 1) * b) := by
  have hrest := Nat.mod_lt a hb
  have hsplit := Nat.div_add_mod' a b
  unfold nearestEven
  dsimp only
  generalize a / b = floor at hsplit ⊢
  generalize a % b = rest at hrest hsplit ⊢
  subst hsplit
  generalize hwhole : floor * b = whole
  have hdown : 2 * floor * b = 2 * whole := by rw [mul_assoc, hwhole]
  have hup : 2 * (floor + 1) * b = 2 * whole + 2 * b := by
    rw [← hwhole]
    ring
  have hmiddle : (2 * floor + 1) * b = 2 * whole + b := by
    rw [← hwhole]
    ring
  have htop : (2 * (floor + 1) + 1) * b = 2 * whole + 3 * b := by
    rw [← hwhole]
    ring
  split
  · rw [hdown, hmiddle]
    omega
  · rw [hup, htop]
    omega

/-- Multiples of a unit, compared in units of another size. -/
theorem natCast_mul_le_iff {t unit : Rat} {b x k : Nat} (hb : 0 < b) (hunit : 0 < unit)
    (ht : t * b = x * unit) : (k * unit ≤ t ↔ k * b ≤ x) ∧ (t ≤ k * unit ↔ x ≤ k * b) := by
  have hb' : (0 : Rat) < b := by exact_mod_cast hb
  have hk : k * unit * b = ((k * b : Nat) : Rat) * unit := by
    push_cast
    ring
  constructor
  · rw [← mul_le_mul_iff_of_pos_right hb', ht, hk, mul_le_mul_iff_of_pos_right hunit, Nat.cast_le]
  · rw [← mul_le_mul_iff_of_pos_right hb', ht, hk, mul_le_mul_iff_of_pos_right hunit, Nat.cast_le]

/-- A ratio lies between the middles of the units next to what it is rounded to. -/
theorem between_middles {a b : Nat} (hb : 0 < b) (hr : r = (a : Rat) / b * (2 : Rat) ^ q)
    (hm : nearestEven a b = m) :
    (m * (2 : Rat) ^ q - (2 : Rat) ^ (q - 1) ≤ r ∧ r ≤ m * (2 : Rat) ^ q + (2 : Rat) ^ (q - 1)) ∧
      (m % 2 = 1 → m * (2 : Rat) ^ q - (2 : Rat) ^ (q - 1) ≠ r ∧
        r ≠ m * (2 : Rat) ^ q + (2 : Rat) ^ (q - 1)) := by
  have hb' : (b : Rat) ≠ 0 := by exact_mod_cast hb.ne'
  have hunit : (0 : Rat) < (2 : Rat) ^ (q - 1) := by positivity
  obtain ⟨⟨hlow, hhigh⟩, hodd⟩ := hm ▸ nearestEven_spec (a := a) hb
  rw [two_zpow_eq_two_mul q] at hr ⊢
  generalize (2 : Rat) ^ (q - 1) = unit at hr hunit ⊢
  have hscaled : r * b = ((2 * a : Nat) : Rat) * unit := by
    rw [hr]
    field_simp
    push_cast
    ring
  have hscaled' : (r + unit) * b = ((2 * a + b : Nat) : Rat) * unit := by
    rw [add_mul, hscaled]
    push_cast
    ring
  have hmiddle : m * (2 * unit) + unit = ((2 * m + 1 : Nat) : Rat) * unit := by
    push_cast
    ring
  have hmultiple : m * (2 * unit) = ((2 * m : Nat) : Rat) * unit := by
    push_cast
    ring
  have hbelow := natCast_mul_le_iff (k := 2 * m) hb hunit hscaled'
  have habove := natCast_mul_le_iff (k := 2 * m + 1) hb hunit hscaled
  rw [hmiddle, hmultiple, sub_le_iff_le_add, hbelow.1, habove.2]
  refine ⟨⟨hlow, hhigh⟩, fun hm => ⟨fun heq => ?_, fun heq => ?_⟩⟩
  · refine (hodd hm).1 (hlow.antisymm (hbelow.2.mp ?_))
    rw [← heq]
    linarith
  · exact (hodd hm).2 (hhigh.antisymm (habove.1.mp heq.ge))

/-- Rounding a ratio to a double, as far as its exponent allows. -/
theorem exists_ofRatio (hn : 0 < n) (hd : 0 < d) (negative : Bool) :
    ∃ m q, Normalized m q ∧ readsBack m q ((n : Rat) / d) = true ∧
      ofRatio negative n d =
        if canonical : Canonical m q then finite negative m q canonical else infinite negative := by
  have hspec := exponentFor_spec hn hd
  have hlt := div_lt_exponentFor hn hd
  generalize hq : exponentFor n d = q at hspec hlt
  generalize hunits : inUnits n d q = units
  obtain ⟨a, b⟩ := units
  generalize hm : nearestEven a b = m
  obtain ⟨hb, hratio⟩ := inUnits_spec hd n q
  rw [hunits] at hb hratio
  dsimp only at hb hratio
  have hunit : (0 : Rat) < (2 : Rat) ^ q := by positivity
  have hr : (n : Rat) / d = (a : Rat) / b * (2 : Rat) ^ q := by
    rw [hratio, div_mul_cancel₀ _ hunit.ne']
  obtain ⟨⟨hlow, hhigh⟩, hodd⟩ := between_middles hb hr hm
  obtain ⟨hfloor, hfloor'⟩ := hm ▸ le_nearestEven a b
  have hleast : -1074 ≤ q := hspec.elim Eq.ge And.left
  have hbits : q = -1074 ∨ Nat.pow 2 52 ≤ m := by
    refine hspec.imp_right fun hlarge => le_trans ((le_div_iff_natCast_le hb).mpr ?_) hfloor
    rw [hratio, le_div_iff₀ hunit]
    have hpow := hlarge.2
    rw [zpow_add₀ (by norm_num)] at hpow
    exact_mod_cast hpow
  have htop : m ≤ Nat.pow 2 53 := by
    refine hfloor'.trans (Nat.succ_le_of_lt (lt_of_not_ge fun hge => ?_))
    have hle := (le_div_iff_natCast_le hb).mp hge
    rw [hratio, le_div_iff₀ hunit] at hle
    rw [zpow_add₀ (by norm_num)] at hlt
    exact absurd hle (not_le.mpr (by exact_mod_cast hlt))
  by_cases hcarry : m = Nat.pow 2 53
  · -- the next power of two, whose interval begins in the middle of the units below it
    refine ⟨Nat.pow 2 52, q + 1, ⟨by decide, by omega, .inl le_rfl⟩, ?_, ?_⟩
    · have hvalue : ((Nat.pow 2 52 : Nat) : Rat) * (2 : Rat) ^ (q + 1) = m * (2 : Rat) ^ q := by
        rw [hcarry, zpow_add_one₀ (by norm_num)]
        norm_num
        ring
      have hreach : reach (Nat.pow 2 52) (q + 1) = (2 : Rat) ^ (q - 1) := by
        rw [reach, if_pos ⟨rfl, by omega⟩]
        congr 1
        ring
      have hbelow : (n : Rat) / d ≤ m * (2 : Rat) ^ q := by
        rw [hcarry]
        rw [zpow_add₀ (by norm_num)] at hlt
        exact_mod_cast hlt.le
      refine readsBack_iff.mpr ⟨⟨?_, ?_⟩, fun hodd => absurd hodd (by decide)⟩
      · rw [hvalue, hreach]
        exact hlow
      · rw [hvalue]
        exact hbelow.trans (le_add_of_nonneg_right (by positivity))
    · simp only [ofRatio, hq, hunits, hm, if_pos hcarry]
  · refine ⟨m, q, ⟨by omega, hleast, hbits.symm⟩, ?_, ?_⟩
    · by_cases hpow : m = Nat.pow 2 52 ∧ -1074 < q
      · -- the ratio is not below the power of two
        have habove : (m : Rat) * (2 : Rat) ^ q ≤ (n : Rat) / d := by
          have hpower := (hspec.resolve_left (by omega)).2
          rw [zpow_add₀ (by norm_num)] at hpower
          rw [hpow.1]
          exact_mod_cast hpower
        refine readsBack_iff.mpr ⟨⟨?_, hhigh⟩, fun hodd => ?_⟩
        · rw [reach, if_pos hpow]
          exact (sub_le_self _ (by positivity)).trans habove
        · rw [hpow.1] at hodd
          exact absurd hodd (by decide)
      · rw [readsBack_iff, reach, if_neg hpow]
        exact ⟨⟨hlow, hhigh⟩, hodd⟩
    · simp only [ofRatio, hq, hunits, hm, if_neg hcarry]

/-- Ratios of moderate size are rounded to finite doubles. -/
theorem isFinite_ofRatio (hn : 0 < n) (hd : 0 < d) (negative : Bool)
    (hlt : (n : Rat) / d < (2 : Rat) ^ (1023 : Int)) : (ofRatio negative n d).isFinite = true := by
  obtain ⟨m, q, hnormalized, hback, hround⟩ := exists_ofRatio hn hd negative
  have hexp : q ≤ 971 := by
    by_contra hlarge
    -- the interval of such a double begins far above the ratio
    have hlow := (le_low hnormalized (by omega)).trans (readsBack_iff.mp hback).1.1
    have hpow : (2 : Rat) ^ (1023 : Int) ≤
        ((Nat.pow 2 54 - 1 : Nat) : Rat) * (2 : Rat) ^ (q - 2) := by
      calc (2 : Rat) ^ (1023 : Int) ≤ (2 : Rat) ^ (53 + (q - 2)) :=
            zpow_le_zpow_right₀ (by norm_num) (by omega)
        _ = (2 : Rat) ^ (53 : Int) * (2 : Rat) ^ (q - 2) := zpow_add₀ (by norm_num) _ _
        _ ≤ ((Nat.pow 2 54 - 1 : Nat) : Rat) * (2 : Rat) ^ (q - 2) := by
          gcongr
          norm_num
    exact absurd (hpow.trans hlow) (not_le.mpr hlt)
  obtain ⟨hm, hq, hbits⟩ := hnormalized
  rw [hround, dif_pos ⟨hm, hq, hexp, hbits⟩]
  rfl

/-- What is in the interval of a double is rounded to it. -/
theorem ofRatio_of_readsBack (hn : 0 < n) (hd : 0 < d) (negative : Bool)
    (canonical : Canonical m q) (h : readsBack m q ((n : Rat) / d) = true) :
    ofRatio negative n d = finite negative m q canonical := by
  obtain ⟨m', q', hnormalized, hback, hround⟩ := exists_ofRatio hn hd negative
  obtain ⟨rfl, rfl⟩ := eq_of_readsBack hnormalized canonical.normalized hback h
  rw [hround, dif_pos canonical]

end

/-! ## The first guess of a grid -/

/-- Three powers of ten are nearly ten powers of two, and twenty-eight are nearly ninety-three. -/
theorem ten_zpow_le_two_zpow {e : Int} (h : 100000 * (k + 2) ≤ 30103 * (e + 2)) (hk : k ≤ 400)
    (hk' : -9000 ≤ k) : (10 : Rat) ^ k ≤ (2 : Rat) ^ e := by
  rcases Int.le_total 0 k with hnonneg | hnonpos
  · have hpow : ((10 : Rat) ^ k) ^ 3 ≤ ((2 : Rat) ^ e) ^ 3 := by
      calc ((10 : Rat) ^ k) ^ 3 = ((10 : Rat) ^ 3) ^ k := by
            rw [← zpow_natCast, ← zpow_natCast, zpow_comm]
        _ ≤ ((2 : Rat) ^ 10) ^ k := zpow_le_zpow_left₀ hnonneg (by norm_num) (by norm_num)
        _ = (2 : Rat) ^ (10 * k) := by rw [← zpow_natCast, ← zpow_mul]; rfl
        _ ≤ (2 : Rat) ^ (e * 3) := zpow_le_zpow_right₀ (by norm_num) (by omega)
        _ = ((2 : Rat) ^ e) ^ 3 := by rw [zpow_mul]; rfl
    exact (pow_le_pow_iff_left₀ (by positivity) (by positivity) (by decide)).mp hpow
  · have hpow : ((10 : Rat) ^ k) ^ 28 ≤ ((2 : Rat) ^ e) ^ 28 := by
      calc ((10 : Rat) ^ k) ^ 28 = ((10 : Rat) ^ 28) ^ k := by
            rw [← zpow_natCast, ← zpow_natCast, zpow_comm]
        _ ≤ ((2 : Rat) ^ 93) ^ k := by
          obtain ⟨j, hj⟩ := Int.eq_ofNat_of_zero_le (Int.neg_nonneg_of_nonpos hnonpos)
          rw [← neg_neg k, hj, zpow_neg, zpow_neg]
          exact inv_anti₀ (by positivity) (zpow_le_zpow_left₀ (by omega) (by norm_num) (by norm_num))
        _ = (2 : Rat) ^ (93 * k) := by rw [← zpow_natCast, ← zpow_mul]; rfl
        _ ≤ (2 : Rat) ^ (e * 28) := zpow_le_zpow_right₀ (by norm_num) (by omega)
        _ = ((2 : Rat) ^ e) ^ 28 := by rw [zpow_mul]; rfl
    exact (pow_le_pow_iff_left₀ (by positivity) (by positivity) (by decide)).mp hpow

theorem two_zpow_le_magnitude (hm : 0 < m) (q : Int) : (2 : Rat) ^ q ≤ magnitude m q := by
  have hone : (1 : Rat) ≤ m := by exact_mod_cast hm
  rw [magnitude_eq]
  exact le_mul_of_one_le_left (by positivity) hone

theorem Canonical.magnitude_lt (h : Canonical m q) : magnitude m q < (2 : Rat) ^ (53 + q) := by
  have hlt : (m : Rat) < (2 : Rat) ^ (53 : Int) := by exact_mod_cast h.1
  rw [magnitude_eq, zpow_add₀ (by norm_num)]
  gcongr

/-- The first guess is not above the double. -/
theorem tenPow_decade_le (hm : 0 < m) (h : Canonical m q) :
    tenPow (decade (magnitude m q)) ≤ magnitude m q := by
  have hleast := two_zpow_le_magnitude hm q
  have hgreatest := h.magnitude_lt
  generalize magnitude m q = r at hleast hgreatest
  have hr : 0 < r := lt_of_lt_of_le (by positivity) hleast
  have hnum : 0 < r.num.natAbs := Int.natAbs_pos.mpr (Rat.num_pos.mpr hr).ne'
  have hbelow := two_zpow_lt_div hnum r.den_pos
  have habove := div_lt_two_zpow hnum r.den_pos
  rw [natAbs_num_div_den hr] at hbelow habove
  unfold decade
  generalize (r.num.natAbs.log2 : Int) - r.den.log2 = bits at hbelow habove ⊢
  have hbits : bits - 1 < 53 + q :=
    (zpow_lt_zpow_iff_right₀ (by norm_num)).mp (hbelow.trans hgreatest)
  have hbits' : q < bits + 1 := (zpow_lt_zpow_iff_right₀ (by norm_num)).mp (hleast.trans_lt habove)
  obtain ⟨-, hexp, hexp', -⟩ := h
  generalize htop : ((bits + 1) * 30103).fdiv 100000 + 1 = top
  rw [Int.fdiv_eq_ediv_of_nonneg _ (by omega)] at htop
  dsimp only
  split
  · assumption
  split
  · assumption
  split
  · assumption
  · rw [tenPow_eq]
    exact (ten_zpow_le_two_zpow (by omega) (by omega) (by omega)).trans hbelow.le

/-! ## Grids -/

theorem readsBack_of_lt (hlow : m * (2 : Rat) ^ q - reach m q < r)
    (hhigh : r < m * (2 : Rat) ^ q + (2 : Rat) ^ (q - 1)) : readsBack m q r = true :=
  readsBack_iff.mpr ⟨⟨hlow.le, hhigh.le⟩, fun _ => ⟨hlow.ne, hhigh.ne⟩⟩

theorem reach_pos (m : Nat) (q : Int) : 0 < reach m q := by
  unfold reach
  split <;> positivity

/-- What is chosen on a grid reads back. -/
theorem readsBack_of_onGrid? {digits : Nat} (h : onGrid? m q k = some digits) :
    readsBack m q (digits * tenPow k) = true := by
  unfold onGrid? at h
  dsimp only at h
  split at h
  · cases h
  · cases h
    assumption
  · cases h
    assumption
  · rename_i hdown hup
    split at h
    · cases h
      exact hdown
    · cases h
      exact hup

/-- A grid that is finer than the interval of a double has a number in it. -/
theorem onGrid?_ne_none (h : tenPow k < reach m q + (2 : Rat) ^ (q - 1)) :
    onGrid? m q k ≠ none := by
  have hunit : 0 < tenPow k := by
    rw [tenPow_eq]
    positivity
  have hvalue : 0 ≤ magnitude m q := by
    rw [magnitude_eq]
    positivity
  have hfloor : 0 ≤ (magnitude m q / tenPow k).floor :=
    Rat.le_floor_iff.mpr (by exact_mod_cast div_nonneg hvalue hunit.le)
  obtain ⟨lower, hlower⟩ := Int.eq_ofNat_of_zero_le hfloor
  have hdown : (lower : Rat) * tenPow k ≤ magnitude m q := by
    rw [← le_div_iff₀ hunit]
    exact_mod_cast Rat.le_floor_iff.mp hlower.ge
  have hup : magnitude m q < ((lower + 1 : Nat) : Rat) * tenPow k := by
    rw [← div_lt_iff₀ hunit]
    have hlt := Rat.floor_lt_iff.mp (show (magnitude m q / tenPow k).floor < (lower : Int) + 1 by omega)
    exact_mod_cast hlt
  have hstep : ((lower + 1 : Nat) : Rat) * tenPow k = lower * tenPow k + tenPow k := by
    push_cast
    ring
  have hreach := reach_pos m q
  have hhalf : (0 : Rat) < (2 : Rat) ^ (q - 1) := by positivity
  -- the number below is near enough, or the one above is
  have hback : readsBack m q (lower * tenPow k) = true ∨
      readsBack m q ((lower + 1 : Nat) * tenPow k) = true := by
    rw [magnitude_eq] at hdown hup
    by_cases hnear : m * (2 : Rat) ^ q - reach m q < lower * tenPow k
    · exact .inl (readsBack_of_lt hnear (by linarith))
    · exact .inr (readsBack_of_lt (by linarith) (by linarith))
  unfold onGrid?
  simp only [hlower, Int.toNat_natCast]
  rcases hback with hback | hback
  · rw [hback]
    cases readsBack m q (((lower + 1 : Nat) : Rat) * tenPow k) <;> simp
  · rw [hback]
    cases readsBack m q ((lower : Rat) * tenPow k) <;> simp

/-- The search ends on a grid, if there is one that it comes to. -/
theorem onGrid?_coarsest {steps j : Nat} (hj : j < steps) (h : onGrid? m q (k - j) ≠ none) :
    onGrid? m q (coarsest m q k steps).2 = some (coarsest m q k steps).1 := by
  induction steps generalizing k j with
  | zero => cases hj
  | succ steps ih =>
    rw [coarsest]
    split
    · assumption
    · rename_i hnone
      cases j with
      | zero =>
        rw [Nat.cast_zero, sub_zero] at h
        exact absurd hnone h
      | succ j =>
        refine ih (Nat.lt_of_succ_lt_succ hj) ?_
        rw [Nat.cast_succ, add_comm, ← sub_sub] at h
        exact h

/-- Seventeen digits make a grid that is finer than the interval. -/
theorem tenPow_lt (hm : 0 < m) (h : Canonical m q) :
    tenPow (decade (magnitude m q) - 16) < reach m q + (2 : Rat) ^ (q - 1) := by
  have hle := tenPow_decade_le hm h
  have hten : tenPow (decade (magnitude m q) - 16) * 10000000000000000 =
      tenPow (decade (magnitude m q)) := by
    rw [tenPow_eq, tenPow_eq, zpow_sub₀ (by norm_num)]
    norm_num
  have hunit : (0 : Rat) < (2 : Rat) ^ (q - 2) := by positivity
  have hhalf : (2 : Rat) ^ (q - 1) = 2 * (2 : Rat) ^ (q - 2) := by
    rw [two_zpow_eq_two_mul (q - 1), sub_sub]
    rfl
  rw [← hten] at hle
  generalize tenPow (decade (magnitude m q) - 16) = grid at hle ⊢
  rw [magnitude_eq, two_zpow_eq_two_mul q, hhalf] at hle
  rw [reach, hhalf]
  generalize (2 : Rat) ^ (q - 2) = unit at hunit hle ⊢
  split
  · rename_i hpow
    rw [hpow.1] at hle
    norm_num at hle
    linarith
  · have hlt : (m : Rat) < 9007199254740992 := by exact_mod_cast h.1
    have hscaled := mul_lt_mul_of_pos_right hlt hunit
    linarith

/-- **The shortest digits read back.** -/
theorem readsBack_shortest (hm : 0 < m) (h : Canonical m q) :
    readsBack m q ((shortest m q).1 * tenPow (shortest m q).2) = true :=
  readsBack_of_onGrid? (onGrid?_coarsest (j := 16) (by decide) (onGrid?_ne_none (tenPow_lt hm h)))

end PagedQuery.Binary64
