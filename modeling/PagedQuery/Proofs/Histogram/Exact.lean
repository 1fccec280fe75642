import Mathlib.Algebra.Order.Field.Power
import Mathlib.Data.Rat.Floor
import Mathlib.Tactic.FieldSimp
import Mathlib.Tactic.Linarith
import Mathlib.Tactic.NormNum
import Mathlib.Tactic.Positivity
import Mathlib.Tactic.Ring
import PagedQuery.Proofs.Histogram.Boundaries

/-!
# Boundaries in exact arithmetic

Without rounding noise a boundary is moved only to a decimal grid, six digits
finer than the size of a bucket. The grid is fine enough that boundaries stay
apart, but the last one may be moved as far as the end of the histogram, since
the slack of the number of buckets is smaller than the unit of the grid.

* `wholeDecade_spec`: the power of ten below a number;
* `Histogram.roundingUnit`, `Histogram.abs_point_sub_le`: how far a boundary is moved;
* `Histogram.point_lt_point`: boundaries stay apart;
* `Histogram.points?_exact`: the histograms that have boundaries.
-/

namespace PagedQuery

/-! ## Powers of ten -/

theorem exists_length_toDigits {n : Nat} (hn : 0 < n) :
    ∃ l, (Nat.toDigits 10 n).length = l + 1 ∧ 10 ^ l ≤ n ∧ n < 10 ^ (l + 1) := by
  obtain ⟨l, hl⟩ : ∃ l, (Nat.toDigits 10 n).length = l + 1 :=
    Nat.exists_eq_succ_of_ne_zero (Nat.pos_iff_ne_zero.mp Nat.length_toDigits_pos)
  refine ⟨l, hl, ?_, (Nat.length_toDigits_le_iff (by decide) (by omega)).mp hl.le⟩
  by_contra hlt
  rcases Nat.eq_zero_or_pos l with rfl | hpos
  · rw [pow_zero] at hlt
    omega
  · have hle := (Nat.length_toDigits_le_iff (b := 10) (by decide) hpos).mpr (not_le.mp hlt)
    omega

/-- The power of ten that a number is not below, the next one being above it. -/
theorem wholeDecade_spec {r : ℚ} (hr : 0 < r) :
    (10 : ℚ) ^ wholeDecade r ≤ r ∧ r < (10 : ℚ) ^ (wholeDecade r + 1) := by
  unfold wholeDecade
  split
  · rename_i hone
    have hfloor : (1 : Int) ≤ r.floor := Rat.le_floor_iff.mpr (by exact_mod_cast hone)
    obtain ⟨l, hl, hlow, hhigh⟩ := exists_length_toDigits (n := r.floor.toNat) (by omega)
    have hlow' : ((10 : Int) ^ l) ≤ r.floor := by
      have h : ((10 ^ l : Nat) : Int) ≤ r.floor.toNat := by exact_mod_cast hlow
      push_cast at h
      omega
    have hhigh' : r.floor < (10 : Int) ^ (l + 1) := by
      have h : (r.floor.toNat : Int) < ((10 ^ (l + 1) : Nat) : Int) := by exact_mod_cast hhigh
      push_cast at h
      omega
    rw [hl]
    constructor
    · rw [show ((l + 1 : Nat) : Int) - 1 = l by omega, zpow_natCast]
      exact_mod_cast Rat.le_floor_iff.mp hlow'
    · rw [show ((l + 1 : Nat) : Int) - 1 + 1 = ((l + 1 : Nat) : Int) by omega, zpow_natCast]
      exact_mod_cast Rat.floor_lt_iff.mp hhigh'
  · rename_i hone
    have hinv : 1 < 1 / r := (one_lt_div hr).mpr (not_le.mp hone)
    have hceil : (1 : Int) < (1 / r).ceil := Rat.lt_ceil_iff.mpr (by exact_mod_cast hinv)
    obtain ⟨l, hl, hlow, hhigh⟩ :=
      exists_length_toDigits (n := (1 / r).ceil.toNat - 1) (by omega)
    have hlow' : ((10 : Int) ^ l) < (1 / r).ceil := by
      have h : ((10 ^ l : Nat) : Int) ≤ ((1 / r).ceil.toNat - 1 : Nat) := by exact_mod_cast hlow
      push_cast at h
      omega
    have hhigh' : (1 / r).ceil ≤ (10 : Int) ^ (l + 1) := by
      have h : (((1 / r).ceil.toNat - 1 : Nat) : Int) < ((10 ^ (l + 1) : Nat) : Int) := by
        exact_mod_cast hhigh
      push_cast at h
      omega
    rw [hl]
    constructor
    · rw [zpow_neg, zpow_natCast, inv_le_comm₀ (by positivity) hr, inv_eq_one_div]
      exact_mod_cast Rat.ceil_le_iff.mp hhigh'
    · rw [show -((l + 1 : Nat) : Int) + 1 = -(l : Int) by omega, zpow_neg, zpow_natCast,
        lt_inv_comm₀ hr (by positivity), inv_eq_one_div]
      exact_mod_cast Rat.lt_ceil_iff.mp hlow'

namespace Arithmetic

theorem powFrom_exact {n bits : Nat} (hn : n < 2 ^ bits) (result base : ℚ) :
    exact.powFrom result base n bits = result * base ^ n := by
  induction bits generalizing result base n with
  | zero =>
    obtain rfl : n = 0 := by omega
    simp [powFrom]
  | succ bits ih =>
    have hhalf : n / 2 < 2 ^ bits := by omega
    rw [powFrom, ih hhalf]
    change (if n % 2 = 1 then result * base else result) * (base * base) ^ (n / 2) = _
    have hsquare : (base * base) ^ (n / 2) = base ^ (2 * (n / 2)) := by
      rw [pow_mul, pow_two]
    rw [hsquare]
    split
    · rw [mul_assoc, ← pow_succ']
      congr 2
      omega
    · congr 2
      omega

theorem pow_exact (base : ℚ) (n : Nat) : exact.pow base n = base ^ n := by
  rw [pow, powFrom_exact Nat.lt_log2_self]
  exact one_mul _

/-- The nearest whole number is at most a half away. -/
theorem abs_round_exact_sub_le (x : ℚ) : |exact.round x - x| ≤ 1 / 2 := by
  have hhalf : mkRat 1 2 = (1 / 2 : ℚ) := by norm_num [Rat.mkRat_eq_div]
  change |(if x < 0 then -((mkRat 1 2 - x).floor : Int) else ((x + mkRat 1 2).floor : Int) : ℚ) - x|
    ≤ 1 / 2
  rw [hhalf]
  split
  · have hle := Rat.floor_le (1 / 2 - x)
    have hlt := Rat.lt_floor_add_one (1 / 2 - x)
    push_cast at hlt ⊢
    exact abs_le.mpr ⟨by linarith, by linarith⟩
  · have hle := Rat.floor_le (x + 1 / 2)
    have hlt := Rat.lt_floor_add_one (x + 1 / 2)
    push_cast at hlt ⊢
    exact abs_le.mpr ⟨by linarith, by linarith⟩

end Arithmetic

namespace Histogram

variable {start finish size : ℚ}

/-! ## Rounding to the grid -/

/-- The unit of the grid that boundaries are moved to. -/
def roundingUnit (size : ℚ) : ℚ :=
  (10 : ℚ) ^ (-places Arithmetic.exact size)

theorem roundingUnit_pos (size : ℚ) : 0 < roundingUnit size := by
  unfold roundingUnit
  positivity

/-- The unit is a millionth of the power of ten below the size. -/
theorem roundingUnit_le (hsize : 0 < size) : roundingUnit size ≤ size / 1000000 := by
  have hunit : roundingUnit size = (10 : ℚ) ^ wholeDecade size / 1000000 := by
    have hexponent : -places Arithmetic.exact size = wholeDecade size - 6 := by
      change -(6 - wholeDecade size) = _
      omega
    rw [roundingUnit, hexponent, zpow_sub₀ (by norm_num)]
    norm_num
  rw [hunit]
  exact div_le_div_of_nonneg_right (wholeDecade_spec hsize).1 (by norm_num)

/-- A number is moved by at most half a unit. -/
theorem abs_roundPoint_sub_le (value size : ℚ) :
    |roundPoint Arithmetic.exact value size - value| ≤ roundingUnit size / 2 := by
  have hkept : |value - value| ≤ roundingUnit size / 2 := by
    rw [sub_self, abs_zero]
    exact (half_pos (roundingUnit_pos size)).le
  unfold roundPoint
  dsimp only
  split
  · exact hkept
  split
  · exact hkept
  · rename_i hplaces _
    generalize hn : (places Arithmetic.exact size).toNat = n
    have hunit : roundingUnit size = ((10 : ℚ) ^ n)⁻¹ := by
      rw [roundingUnit, zpow_neg, ← zpow_natCast, ← hn, Int.toNat_of_nonneg (by omega)]
    have hscale : (0 : ℚ) < 10 ^ n := by positivity
    have hpow : Arithmetic.exact.pow (Arithmetic.exact.ofRat 10) n = (10 : ℚ) ^ n :=
      Arithmetic.pow_exact 10 n
    rw [hpow, hunit]
    change |Arithmetic.exact.round (value * 10 ^ n) / 10 ^ n - value| ≤ _
    have hround := Arithmetic.abs_round_exact_sub_le (value * 10 ^ n)
    have hscaled : Arithmetic.exact.round (value * 10 ^ n) / 10 ^ n - value =
        (Arithmetic.exact.round (value * 10 ^ n) - value * 10 ^ n) / 10 ^ n := by
      field_simp
    rw [hscaled, abs_div, abs_of_pos hscale, div_le_iff₀ hscale]
    calc |Arithmetic.exact.round (value * 10 ^ n) - value * 10 ^ n| ≤ 1 / 2 := hround
      _ = ((10 : ℚ) ^ n)⁻¹ / 2 * 10 ^ n := by field_simp

/-! ## Boundaries -/

/-- A boundary is at most half a unit away from where the buckets would end without rounding. -/
theorem abs_point_sub_le (start size : ℚ) (k : Nat) :
    |point Arithmetic.exact start size k - (start + k * size)| ≤ roundingUnit size / 2 :=
  abs_roundPoint_sub_le (start + k * size) size

/-- Boundaries stay apart: a unit is less than a bucket. -/
theorem point_lt_point (hsize : 0 < size) (start : ℚ) {j k : Nat} (hjk : j < k) :
    point Arithmetic.exact start size j < point Arithmetic.exact start size k := by
  have hj := abs_le.mp (abs_point_sub_le start size j)
  have hk := abs_le.mp (abs_point_sub_le start size k)
  have hunit := roundingUnit_le hsize
  have hstep : (j : ℚ) * size + size ≤ k * size := by
    have hle : (j : ℚ) + 1 ≤ k := by exact_mod_cast hjk
    calc (j : ℚ) * size + size = (j + 1) * size := by ring
      _ ≤ k * size := mul_le_mul_of_nonneg_right hle hsize.le
  linarith [hj.2, hk.1]

theorem start_lt_point (hsize : 0 < size) (start : ℚ) {k : Nat} (hk : 0 < k) :
    start < point Arithmetic.exact start size k := by
  have hpoint := abs_le.mp (abs_point_sub_le start size k)
  have hunit := roundingUnit_le hsize
  have hstep : size ≤ k * size := by
    have hle : (1 : ℚ) ≤ k := by exact_mod_cast hk
    exact le_mul_of_one_le_left hsize.le hle
  linarith [hpoint.1]

/-- The boundaries are in order, so the last one tells whether all are below the end. -/
theorem increasesBelow_boundaries_iff (hsize : 0 < size) {n : Nat} :
    increasesBelow Arithmetic.exact start finish (boundaries Arithmetic.exact start size (n + 1)) =
        true ↔
      (0 < n → point Arithmetic.exact start size n < finish) := by
  have hlt (p q : ℚ) : Arithmetic.exact.lt p q = true ↔ p < q := decide_eq_true_iff
  have hchain : (start :: boundaries Arithmetic.exact start size (n + 1)).IsChain
      fun p q => Arithmetic.exact.lt p q = true := by
    refine (List.pairwise_cons.mpr ⟨?_, ?_⟩).isChain
    · intro p hp
      obtain ⟨k, -, rfl⟩ := List.mem_map.mp hp
      exact (hlt _ _).mpr (start_lt_point hsize start k.succ_pos)
    · rw [boundaries, List.pairwise_map]
      refine List.pairwise_lt_range.imp fun hjk => ?_
      exact (hlt _ _).mpr (point_lt_point hsize start (Nat.succ_lt_succ hjk))
  rw [increasesBelow_eq_true_iff, and_iff_right hchain]
  simp only [hlt, boundaries, List.forall_mem_map, List.mem_range]
  constructor
  · intro hbelow hn
    have hlast := hbelow (n - 1) (by omega)
    rwa [Nat.sub_add_cancel hn] at hlast
  · intro hlast k hk
    have hpoint := hlast (by omega)
    rcases Nat.lt_or_ge (k + 1) n with hlt | hge
    · exact (point_lt_point hsize start hlt).trans hpoint
    · obtain rfl : k + 1 = n := by omega
      exact hpoint

/-! ## Histograms that have boundaries -/

/-- A histogram of more than one bucket is counted, and without rounding its last bucket begins
before its end. -/
theorem bucketCount?_exact (hsize : 0 < size) (hwide : size < finish - start)
    (hcount : ((finish - start) / size - slack).ceil ≤ maxBuckets) :
    ∃ n : Nat, bucketCount? Arithmetic.exact start finish size = some (n + 1) ∧
      start + n * size < finish := by
  have hslack : slack = (1 / 1000000000 : ℚ) := by norm_num [slack, Rat.mkRat_eq_div]
  generalize hq : (finish - start) / size - slack = q at hcount
  have hquotient : 1 < (finish - start) / size := (one_lt_div hsize).mpr hwide
  have hceil : (0 : Int) < q.ceil := by
    refine Rat.lt_ceil_iff.mpr ?_
    rw [← hq, hslack, Int.cast_zero]
    linarith
  obtain ⟨n, hn⟩ : ∃ n : Nat, q.ceil = n + 1 := ⟨(q.ceil - 1).toNat, by omega⟩
  refine ⟨n, ?_, ?_⟩
  · have hlt (x y : ℚ) (h : x < y) : Arithmetic.exact.lt x y = true := decide_eq_true h
    have hlength : quotient Arithmetic.exact start finish size = q := hq
    refine bucketCount?_eq_some_iff.mpr ⟨⟨rfl, rfl, rfl⟩, ⟨hlt _ _ (by linarith), hlt _ _ hsize,
      hlt _ _ hwide⟩, rfl, ?_, ?_⟩
    · rw [hlength]
      exact hcount
    · rw [hlength]
      change q.ceil.toNat = n + 1
      rw [hn]
      rfl
  · have hlast : (n : ℚ) < q := by
      have hlt := Rat.lt_ceil_iff.mp (show (n : Int) < q.ceil by omega)
      exact_mod_cast hlt
    have hbuckets : (n : ℚ) < (finish - start) / size := by
      rw [← hq, hslack] at hlast
      linarith
    have hlength := (lt_div_iff₀ hsize).mp hbuckets
    linarith

/-- The boundaries of a histogram with more than one bucket, and not too many: they are returned
unless the last one is moved to the end of the histogram or past it. Each one is at most half a
unit away from where it would be without rounding, so a histogram is refused only if its last
bucket is not longer than that. -/
theorem points?_exact (hsize : 0 < size) (hwide : size < finish - start)
    (hcount : ((finish - start) / size - slack).ceil ≤ maxBuckets) :
    ∃ n : Nat, bucketCount? Arithmetic.exact start finish size = some (n + 1) ∧
      start + n * size < finish ∧
      points? Arithmetic.exact start finish size =
        (if 0 < n ∧ finish ≤ point Arithmetic.exact start size n then none
        else some (boundaries Arithmetic.exact start size (n + 1))) ∧
      (∀ k : Nat, |point Arithmetic.exact start size k - (start + k * size)| ≤
        roundingUnit size / 2) ∧
      (points? Arithmetic.exact start finish size = none →
        finish - (start + n * size) ≤ roundingUnit size / 2) := by
  obtain ⟨n, hbuckets, hlast⟩ := bucketCount?_exact hsize hwide hcount
  have hpoints : points? Arithmetic.exact start finish size =
      if 0 < n ∧ finish ≤ point Arithmetic.exact start size n then none
      else some (boundaries Arithmetic.exact start size (n + 1)) := by
    split
    · rename_i hrefused
      refine Option.eq_none_iff_forall_ne_some.mpr fun points hpoints => ?_
      obtain ⟨buckets, hbuckets', rfl, hincreases⟩ := points?_eq_some_iff.mp hpoints
      obtain rfl := Option.some.inj (hbuckets.symm.trans hbuckets')
      exact absurd ((increasesBelow_boundaries_iff hsize).mp hincreases hrefused.1)
        (not_lt.mpr hrefused.2)
    · rename_i hkept
      refine points?_eq_some_iff.mpr ⟨n + 1, hbuckets, rfl, ?_⟩
      refine (increasesBelow_boundaries_iff hsize).mpr fun hn => ?_
      exact not_le.mp fun hle => hkept ⟨hn, hle⟩
  refine ⟨n, hbuckets, hlast, hpoints, abs_point_sub_le start size, ?_⟩
  intro hnone
  rw [hpoints] at hnone
  split at hnone
  · rename_i hrefused
    have hmoved := (abs_le.mp (abs_point_sub_le start size n)).2
    linarith [hrefused.2]
  · cases hnone

/-- Three buckets of a third of a unit, the last one a bit shorter. -/
theorem points?_exact_thirds :
    bucketCount? Arithmetic.exact 0 (99 / 100) (1 / 3) = some 3 ∧
      points? Arithmetic.exact 0 (99 / 100) (1 / 3) =
        some [3333333 / 10000000, 6666667 / 10000000] := by
  have hsize : (0 : ℚ) < 1 / 3 := by norm_num
  have hwide : (1 / 3 : ℚ) < 99 / 100 - 0 := by norm_num
  obtain ⟨n, hbuckets, -, hpoints, -⟩ := points?_exact hsize hwide (by decide +kernel)
  have hcount : bucketCount? Arithmetic.exact 0 (99 / 100) (1 / 3) = some 3 := by decide +kernel
  obtain rfl : n = 2 := Nat.succ.inj (Option.some.inj (hbuckets.symm.trans hcount))
  refine ⟨hcount, hpoints.trans ?_⟩
  decide +kernel

/-- A histogram of two full buckets and a ten millionth, the last boundary of which is moved past
its end. -/
theorem points?_exact_eq_none :
    (7 / 10000000 : ℚ) < 20000008 / 10000000 ∧ (1 : ℚ) < 20000008 / 10000000 - 7 / 10000000 ∧
      bucketCount? Arithmetic.exact (7 / 10000000) (20000008 / 10000000) 1 = some 3 ∧
      points? Arithmetic.exact (7 / 10000000) (20000008 / 10000000) 1 = none := by
  decide +kernel

end Histogram

end PagedQuery
