import Mathlib.Algebra.Order.Field.Power
import Mathlib.Data.Rat.Floor
import Mathlib.Tactic.FieldSimp
import Mathlib.Tactic.Linarith
import Mathlib.Tactic.NormNum
import Mathlib.Tactic.Positivity
import Mathlib.Tactic.Ring
import PagedQuery.Binary64.Basic

/-!
# Rounding to doubles

A ratio is measured in units that leave it a whole part of 53 bits, unless the
units cannot be any finer. So a power of two that is a double is not rounded
past: what is not below it stays so.

* `Binary64.twoPow_eq`, `Binary64.tenPow_eq`: powers as powers of rational numbers;
* `Binary64.lt_iff`, `Binary64.lt_trans`: the order of doubles;
* `Binary64.exponentFor_spec`: the units that a ratio is measured in;
* `Binary64.le_toRat_ofRatio`: what is not below a power of two;
* `Binary64.div_of_toRat_pos`, `Binary64.sub_of_toRat_ne_zero`: quotients and differences.
-/

namespace PagedQuery.Binary64

/-! ## Powers and order -/

theorem twoPow_eq (q : Int) : twoPow q = (2 : Rat) ^ q := by
  unfold twoPow
  split
  · rename_i h
    obtain ⟨n, rfl⟩ := Int.eq_ofNat_of_zero_le h
    simp
  · rename_i h
    obtain ⟨n, hn⟩ : ∃ n : Nat, q = -(n : Int) := ⟨(-q).toNat, by omega⟩
    subst hn
    simp [Rat.mkRat_eq_div]

theorem tenPow_eq (k : Int) : tenPow k = (10 : Rat) ^ k := by
  unfold tenPow
  split
  · rename_i h
    obtain ⟨n, rfl⟩ := Int.eq_ofNat_of_zero_le h
    simp
  · rename_i h
    obtain ⟨n, hn⟩ : ∃ n : Nat, k = -(n : Int) := ⟨(-k).toNat, by omega⟩
    subst hn
    simp [Rat.mkRat_eq_div]

theorem magnitude_eq (m : Nat) (q : Int) : magnitude m q = m * (2 : Rat) ^ q := by
  rw [magnitude, twoPow_eq]

/-- Finite doubles are ordered by their values. -/
theorem lt_iff {x y : Binary64} (hx : x.isFinite = true) (hy : y.isFinite = true) :
    lt x y = true ↔ x.toRat < y.toRat := by
  cases x with
  | finite => cases y with
    | finite => exact decide_eq_true_iff
    | _ => cases hy
  | _ => cases hx

theorem lt_trans {x y z : Binary64} (hxy : lt x y = true) (hyz : lt y z = true) :
    lt x z = true := by
  cases x <;> cases y <;> cases z <;> simp_all [lt]
  exact hxy.trans hyz

/-! ## Units -/

variable {n d : Nat} {q : Int}

/-- A ratio in other units. -/
theorem inUnits_spec (hd : 0 < d) (n : Nat) (q : Int) :
    0 < (inUnits n d q).2 ∧
      ((inUnits n d q).1 : Rat) / (inUnits n d q).2 = (n : Rat) / d / (2 : Rat) ^ q := by
  unfold inUnits
  split
  · rename_i hq
    obtain ⟨k, rfl⟩ := Int.eq_ofNat_of_zero_le hq
    refine ⟨Nat.mul_pos hd (Nat.pow_pos (by decide)), ?_⟩
    simp [div_div]
  · rename_i hq
    obtain ⟨k, rfl⟩ : ∃ k : Nat, q = -(k : Int) := ⟨(-q).toNat, by omega⟩
    refine ⟨hd, ?_⟩
    simp [div_eq_mul_inv, mul_right_comm]

/-- A whole number is not above a ratio exactly if it is not above its whole part. -/
theorem le_div_iff_natCast_le {a b k : Nat} (hb : 0 < b) : k ≤ a / b ↔ (k : Rat) ≤ (a : Rat) / b := by
  have hb' : (0 : Rat) < b := by exact_mod_cast hb
  rw [Nat.le_div_iff_mul_le hb, le_div_iff₀ hb']
  exact_mod_cast Iff.rfl

/-- The bit lengths bound a ratio from below. -/
theorem two_zpow_lt_div (hn : 0 < n) (hd : 0 < d) :
    (2 : Rat) ^ ((n.log2 : Int) - d.log2 - 1) < (n : Rat) / d := by
  have hlow : ((2 ^ n.log2 : Nat) : Rat) ≤ n := by
    exact_mod_cast Nat.log2_self_le (by omega)
  have hhigh : (d : Rat) < ((2 ^ (d.log2 + 1) : Nat) : Rat) := by
    exact_mod_cast Nat.lt_log2_self
  have hd' : (0 : Rat) < d := by exact_mod_cast hd
  have hpow : (2 : Rat) ^ ((n.log2 : Int) - d.log2 - 1) =
      ((2 ^ n.log2 : Nat) : Rat) / ((2 ^ (d.log2 + 1) : Nat) : Rat) := by
    rw [show (n.log2 : Int) - d.log2 - 1 = (n.log2 : Int) - (d.log2 + 1 : Nat) by omega,
      zpow_sub₀ (by norm_num), zpow_natCast, zpow_natCast]
    push_cast
    rfl
  rw [hpow]
  calc ((2 ^ n.log2 : Nat) : Rat) / ((2 ^ (d.log2 + 1) : Nat) : Rat)
      ≤ n / ((2 ^ (d.log2 + 1) : Nat) : Rat) := by gcongr
    _ < n / d := by
      have hn' : (0 : Rat) < n := by exact_mod_cast hn
      gcongr

/-- The bit lengths bound a ratio from above. -/
theorem div_lt_two_zpow (hn : 0 < n) (hd : 0 < d) :
    (n : Rat) / d < (2 : Rat) ^ ((n.log2 : Int) - d.log2 + 1) := by
  have hinv := two_zpow_lt_div hd hn
  have hpos : (0 : Rat) < (d : Rat) / n := by positivity
  rw [← inv_lt_inv₀ hpos (by positivity), inv_div, ← zpow_neg] at hinv
  refine hinv.trans_eq (congrArg _ ?_)
  ring

/-- The units are the finest ones, or the ratio has a whole part of 53 bits. -/
theorem exponentFor_spec (hn : 0 < n) (hd : 0 < d) :
    exponentFor n d = -1074 ∨
      -1074 ≤ exponentFor n d ∧ (2 : Rat) ^ (52 + exponentFor n d) ≤ (n : Rat) / d := by
  generalize hlower : max ((n.log2 : Int) - d.log2 - 53) (-1074) = lower
  obtain ⟨hb, hratio⟩ := inUnits_spec hd n lower
  have hexponent : exponentFor n d =
      if (inUnits n d lower).1 / (inUnits n d lower).2 < Nat.pow 2 53 then lower else lower + 1 := by
    rw [exponentFor, hlower]
  rw [hexponent]
  split
  · rcases Int.le_total ((n.log2 : Int) - d.log2 - 53) (-1074) with hle | hge
    · exact .inl (by omega)
    · refine .inr ⟨by omega, ?_⟩
      rw [show 52 + lower = (n.log2 : Int) - d.log2 - 1 by omega]
      exact (two_zpow_lt_div hn hd).le
  · rename_i hlarge
    refine .inr ⟨by omega, ?_⟩
    have hle := (le_div_iff_natCast_le hb).mp (not_lt.mp hlarge)
    have hpos : (0 : Rat) < (2 : Rat) ^ lower := by positivity
    rw [hratio, le_div_iff₀ hpos] at hle
    rw [show 52 + (lower + 1) = 53 + lower by omega, zpow_add₀ (by norm_num)]
    exact_mod_cast hle

/-- A ratio has a whole part of at most 53 bits in its units. -/
theorem div_lt_exponentFor (hn : 0 < n) (hd : 0 < d) :
    (n : Rat) / d < (2 : Rat) ^ (53 + exponentFor n d) := by
  generalize hlower : max ((n.log2 : Int) - d.log2 - 53) (-1074) = lower
  obtain ⟨hb, hratio⟩ := inUnits_spec hd n lower
  have hexponent : exponentFor n d =
      if (inUnits n d lower).1 / (inUnits n d lower).2 < Nat.pow 2 53 then lower else lower + 1 := by
    rw [exponentFor, hlower]
  rw [hexponent]
  split
  · rename_i hsmall
    have hpos : (0 : Rat) < (2 : Rat) ^ lower := by positivity
    have hlt := lt_of_not_ge fun hge => not_le.mpr hsmall ((le_div_iff_natCast_le hb).mpr hge)
    rw [hratio, div_lt_iff₀ hpos] at hlt
    rw [zpow_add₀ (by norm_num)]
    exact_mod_cast hlt
  · refine (div_lt_two_zpow hn hd).trans_le (zpow_le_zpow_right₀ (by norm_num) ?_)
    omega

/-! ## Rounding -/

theorem le_nearestEven (a b : Nat) : a / b ≤ nearestEven a b ∧ nearestEven a b ≤ a / b + 1 := by
  simp only [nearestEven]
  split <;> omega

/-- What a ratio is rounded to, unless it is infinite, by the whole part that the ratio has in its
units. -/
theorem toRat_ofRatio (hfinite : (ofRatio false n d).isFinite = true) :
    (ofRatio false n d).toRat =
      (nearestEven (inUnits n d (exponentFor n d)).1 (inUnits n d (exponentFor n d)).2 : Rat) *
        (2 : Rat) ^ exponentFor n d := by
  generalize hunits : inUnits n d (exponentFor n d) = units
  obtain ⟨a, b⟩ := units
  unfold ofRatio at hfinite ⊢
  simp only [hunits] at hfinite ⊢
  by_cases hcarry : nearestEven a b = Nat.pow 2 53
  · simp only [if_pos hcarry] at hfinite ⊢
    split at hfinite
    · rename_i hcanonical
      rw [dif_pos hcanonical, toRat, if_neg (by decide), magnitude_eq, hcarry,
        zpow_add₀ (by norm_num)]
      norm_num
      ring
    · cases hfinite
  · simp only [if_neg hcarry] at hfinite ⊢
    split at hfinite
    · rename_i hcanonical
      rw [dif_pos hcanonical, toRat, if_neg (by decide), magnitude_eq]
    · cases hfinite

/-- What is not below a power of two is not rounded to a number below it. -/
theorem le_toRat_ofRatio {e : Int} (hn : 0 < n) (hd : 0 < d) (he : -1074 ≤ e)
    (hle : (2 : Rat) ^ e ≤ (n : Rat) / d) (hfinite : (ofRatio false n d).isFinite = true) :
    (2 : Rat) ^ e ≤ (ofRatio false n d).toRat := by
  rw [toRat_ofRatio hfinite]
  generalize hq : exponentFor n d = q
  obtain ⟨hb, hratio⟩ := inUnits_spec hd n q
  generalize inUnits n d q = units at hb hratio
  obtain ⟨a, b⟩ := units
  have hunit : (0 : Rat) < (2 : Rat) ^ q := by positivity
  -- a power of two that the units divide
  obtain ⟨k, hpow, hk⟩ : ∃ k : Nat, (2 : Rat) ^ e ≤ (2 : Rat) ^ (k + q) ∧
      (2 : Rat) ^ (k + q) ≤ (n : Rat) / d := by
    by_cases hfine : q ≤ e
    · refine ⟨(e - q).toNat, ?_⟩
      rw [Int.toNat_of_nonneg (by omega), sub_add_cancel]
      exact ⟨le_rfl, hle⟩
    · refine ⟨52, zpow_le_zpow_right₀ (by norm_num) (by push_cast; omega), ?_⟩
      have hspec := exponentFor_spec hn hd
      rw [hq] at hspec
      exact (hspec.resolve_left (by omega)).2
  have hscale : (2 : Rat) ^ ((k : Int) + q) = ((2 ^ k : Nat) : Rat) * (2 : Rat) ^ q := by
    rw [zpow_add₀ (by norm_num), zpow_natCast]
    push_cast
    rfl
  have hwhole : 2 ^ k ≤ nearestEven a b := by
    refine le_trans ((le_div_iff_natCast_le hb).mpr ?_) (le_nearestEven a b).1
    rw [hratio, le_div_iff₀ hunit, ← hscale]
    exact hk
  calc (2 : Rat) ^ e ≤ ((2 ^ k : Nat) : Rat) * (2 : Rat) ^ q := hscale ▸ hpow
    _ ≤ nearestEven a b * (2 : Rat) ^ q := by
      have hcast : ((2 ^ k : Nat) : Rat) ≤ nearestEven a b := by exact_mod_cast hwhole
      gcongr

theorem natAbs_num_div_den {r : Rat} (hr : 0 < r) : ((r.num.natAbs : Nat) : Rat) / r.den = r := by
  rw [Nat.cast_natAbs, abs_of_pos (Rat.num_pos.mpr hr)]
  exact Rat.num_div_den r

theorem le_toRat_ofRat {r : Rat} {e : Int} (he : -1074 ≤ e) (hle : (2 : Rat) ^ e ≤ r)
    (hfinite : (ofRat r).isFinite = true) : (2 : Rat) ^ e ≤ (ofRat r).toRat := by
  have hpos : 0 < r := lt_of_lt_of_le (by positivity) hle
  have hnum : 0 < r.num := Rat.num_pos.mpr hpos
  have hround : ofRat r = ofRatio false r.num.natAbs r.den := by
    rw [ofRat, if_neg hpos.ne', decide_eq_false (not_lt.mpr hnum.le)]
  rw [hround] at hfinite ⊢
  exact le_toRat_ofRatio (by omega) r.den_pos he ((natAbs_num_div_den hpos).symm ▸ hle) hfinite

/-! ## Quotients and differences -/

theorem isNegative_of_toRat_pos {x : Binary64} (h : 0 < x.toRat) : x.isNegative = false := by
  cases x with
  | finite negative m q canonical =>
    cases negative with
    | false => rfl
    | true =>
      have hle : 0 ≤ magnitude m q := by
        rw [magnitude_eq]
        positivity
      rw [toRat, if_pos rfl] at h
      exact absurd h (not_lt.mpr (neg_nonpos.mpr hle))
  | _ => exact absurd h (lt_irrefl _)

/-- The quotient of positive numbers. -/
theorem div_of_toRat_pos {x y : Binary64} (hx : 0 < x.toRat) (hy : 0 < y.toRat) :
    div x y = ofRat (x.toRat / y.toRat) := by
  have hpos : 0 < x.toRat / y.toRat := div_pos hx hy
  have hround : div x y = signed (x.isNegative != y.isNegative) (x.toRat / y.toRat) := by
    cases x with
    | finite => cases y with
      | finite => exact if_neg hy.ne'
      | _ => exact absurd hy (lt_irrefl _)
    | _ => exact absurd hx (lt_irrefl _)
  rw [hround, isNegative_of_toRat_pos hx, isNegative_of_toRat_pos hy, signed, if_neg hpos.ne', ofRat,
    if_neg hpos.ne', decide_eq_false (not_lt.mpr (Rat.num_pos.mpr hpos).le)]
  rfl

theorem toRat_neg (x : Binary64) : (neg x).toRat = -x.toRat := by
  cases x with
  | finite negative m q canonical => cases negative <;> simp [neg, toRat]
  | _ => simp [neg, toRat]

/-- What is subtracted from a number other than zero. -/
theorem sub_of_toRat_ne_zero {x y : Binary64} (hx : x.isFinite = true) (hy : y.isFinite = true)
    (hne : x.toRat ≠ 0) : sub x y = ofRat (x.toRat - y.toRat) := by
  have hround : sub x y = ofRat (x.toRat + (neg y).toRat) := by
    cases x with
    | finite => cases y with
      | finite => exact if_neg fun hzero => hne hzero.1
      | _ => cases hy
    | _ => cases hx
  rw [hround, toRat_neg, ← sub_eq_add_neg]

end PagedQuery.Binary64
