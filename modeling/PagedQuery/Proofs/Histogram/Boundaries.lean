import Mathlib.Data.List.Chain
import PagedQuery.Histogram

/-!
# Boundaries of a histogram

What holds of boundaries in every kind of arithmetic: they are all those that
the number of buckets asks for, or there are none.

* `Histogram.bucketCount?_eq_some_iff`: the number of buckets;
* `Histogram.increasesBelow_eq_true_iff`: boundaries between the ends of a histogram;
* `Histogram.points?_eq_some_iff`: the boundaries of a histogram.
-/

namespace PagedQuery.Histogram

variable {α : Type} {arith : Arithmetic α} {start finish size : α}

/-- The length of a histogram in buckets, but for the slack. -/
def quotient (arith : Arithmetic α) (start finish size : α) : α :=
  arith.sub (arith.div (arith.sub finish start) size) (arith.ofRat slack)

/-- The number of buckets, of a histogram with more than one full bucket and not too many. -/
theorem bucketCount?_eq_some_iff {buckets : Nat} :
    bucketCount? arith start finish size = some buckets ↔
      (arith.isFinite start = true ∧ arith.isFinite finish = true ∧ arith.isFinite size = true) ∧
        (arith.lt start finish = true ∧ arith.lt (arith.ofRat 0) size = true ∧
          arith.lt size (arith.sub finish start) = true) ∧
        arith.isFinite (quotient arith start finish size) = true ∧
        arith.ceiling (quotient arith start finish size) ≤ maxBuckets ∧
        (arith.ceiling (quotient arith start finish size)).toNat = buckets := by
  unfold bucketCount?
  change (if _ then none else if _ then none else
    if !arith.isFinite (quotient arith start finish size) ||
      (maxBuckets : Int) < arith.ceiling (quotient arith start finish size) then none else
      some (arith.ceiling (quotient arith start finish size)).toNat) = some buckets ↔ _
  simp only [Option.ite_none_left_eq_some, Option.some.injEq, Bool.not_eq_true,
    Bool.not_eq_false', Bool.or_eq_false_iff, Bool.and_eq_true, decide_eq_false_iff_not, Int.not_lt,
    and_assoc]

/-- The boundaries of a histogram of so many buckets. -/
def boundaries (arith : Arithmetic α) (start size : α) (buckets : Nat) : List α :=
  (List.range (buckets - 1)).map fun k => point arith start size (k + 1)

@[simp] theorem length_boundaries (start size : α) (buckets : Nat) :
    (boundaries arith start size buckets).length = buckets - 1 := by
  simp [boundaries]

/-- Each number is above the one before it, and below the end. -/
theorem increasesBelow_eq_true_iff {previous : α} {points : List α} :
    increasesBelow arith previous finish points = true ↔
      (previous :: points).IsChain (fun p q => arith.lt p q = true) ∧
        ∀ p ∈ points, arith.lt p finish = true := by
  induction points generalizing previous with
  | nil => simp [increasesBelow]
  | cons p rest ih =>
    rw [increasesBelow, Bool.and_eq_true, Bool.and_eq_true, ih, List.isChain_cons_cons,
      List.forall_mem_cons]
    constructor
    · rintro ⟨⟨habove, hbelow⟩, hchain, hrest⟩
      exact ⟨⟨habove, hchain⟩, hbelow, hrest⟩
    · rintro ⟨⟨habove, hchain⟩, hbelow, hrest⟩
      exact ⟨⟨habove, hbelow⟩, hchain, hrest⟩

/-- The boundaries are those between the buckets, if they can be told apart. -/
theorem points?_eq_some_iff {points : List α} :
    points? arith start finish size = some points ↔
      ∃ buckets, bucketCount? arith start finish size = some buckets ∧
        points = boundaries arith start size buckets ∧
        increasesBelow arith start finish points = true := by
  unfold points?
  rw [Option.bind_eq_bind, Option.bind_eq_some_iff]
  refine exists_congr fun buckets => and_congr_right fun _ => ?_
  change (if increasesBelow arith start finish (boundaries arith start size buckets) = true
    then some (boundaries arith start size buckets) else none) = some points ↔ _
  split
  · rename_i hincreases
    rw [Option.some.injEq]
    constructor
    · rintro rfl
      exact ⟨rfl, hincreases⟩
    · rintro ⟨rfl, -⟩
      rfl
  · rename_i hincreases
    refine iff_of_false (by simp) ?_
    rintro ⟨rfl, hpoints⟩
    exact hincreases hpoints

end PagedQuery.Histogram
