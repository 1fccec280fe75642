import Mathlib.Tactic.Linarith
import Mathlib.Tactic.NormNum
import PagedQuery.Proofs.Binary64.Texts
import PagedQuery.Proofs.Histogram.Boundaries
import PagedQuery.Proofs.Query.KeyMatches
import PagedQuery.Proofs.Query.Parts
import PagedQuery.Proofs.Relational.Exact

/-!
# Buckets of a histogram

Boundaries that increase cut the numbers into half-open buckets. The branches of
a case expression are tried in order, so it picks the first bucket whose upper
end is above a number, and since the boundaries increase, that is the only
bucket which the number is in.

* `Bucket`, `Histogram.buckets`: buckets and their labels;
* `Bucket.eq_of_label_eq`: different buckets have different labels;
* `Histogram.bucketOf`, `Dimension.eval_histogramCase`: what a case expression picks;
* `Bucket.Encloses`: the boundaries next to a number;
* `Histogram.bucketCount?_eq_length_succ`: how many buckets boundaries make;
* `Warehouse.OrdersFloats`: databases that compare doubles;
* `Histogram.partition_of_points?`: every number has one bucket.
-/

namespace PagedQuery

variable {δ : Type} [LinearOrder δ]

/-- The numbers from one boundary up to another one, which is left out. An end without a boundary
is open. -/
structure Bucket where
  lower : Option Binary64
  upper : Option Binary64

namespace Bucket

/-- The text of an end. -/
def edge : Option Binary64 → String
  | none => ""
  | some p => toString p

def label (b : Bucket) : String :=
  edge b.lower ++ ";" ++ edge b.upper

def Contains (db : Warehouse δ) (b : Bucket) (v : δ) : Prop :=
  (∀ p ∈ b.lower, db.float p ≤ v) ∧ ∀ p ∈ b.upper, v < db.float p

/-- The ends are the greatest boundary that is not above a datum and the least one above it. -/
structure Encloses (db : Warehouse δ) (points : List Binary64) (b : Bucket) (v : δ) : Prop where
  lower : ∀ p, b.lower = some p ↔
    p ∈ points ∧ db.float p ≤ v ∧ ∀ p' ∈ points, db.float p' ≤ v → db.float p' ≤ db.float p
  upper : ∀ p, b.upper = some p ↔
    p ∈ points ∧ v < db.float p ∧ ∀ p' ∈ points, v < db.float p' → db.float p ≤ db.float p'

end Bucket

namespace Histogram

/-- The buckets between boundaries, the first of which has the lower end `lower`. -/
def buckets (lower : Option Binary64) : List Binary64 → List Bucket
  | [] => [⟨lower, none⟩]
  | p :: rest => ⟨lower, some p⟩ :: buckets (some p) rest

/-- The first bucket whose upper end is above a datum. -/
def bucketOf (db : Warehouse δ) (v : δ) (lower : Option Binary64) : List Binary64 → Bucket
  | [] => ⟨lower, none⟩
  | p :: rest => if v < db.float p then ⟨lower, some p⟩ else bucketOf db v (some p) rest

variable {db : Warehouse δ} {v v' : δ} {lower : Option Binary64} {points : List Binary64}
  {b b' : Bucket} {p : Binary64}

theorem bucketOf_mem_buckets (db : Warehouse δ) (v : δ) (lower : Option Binary64)
    (points : List Binary64) : bucketOf db v lower points ∈ buckets lower points := by
  induction points generalizing lower with
  | nil => exact List.mem_singleton_self _
  | cons p rest ih =>
    rw [bucketOf, buckets]
    split
    · exact List.mem_cons_self
    · exact List.mem_cons_of_mem _ (ih (some p))

/-- The ends of a bucket are the end before the boundaries, or boundaries. -/
theorem ends_of_mem_buckets (h : b ∈ buckets lower points) :
    (∀ p ∈ b.lower, p ∈ lower ∨ p ∈ points) ∧ ∀ p ∈ b.upper, p ∈ points := by
  induction points generalizing lower with
  | nil =>
    obtain rfl := List.mem_singleton.mp h
    exact ⟨fun p hp => .inl hp, by simp⟩
  | cons first rest ih =>
    rcases List.mem_cons.mp h with rfl | hrest
    · exact ⟨fun p hp => .inl hp, by simp⟩
    · obtain ⟨hlower, hupper⟩ := ih hrest
      refine ⟨fun p hp => .inr ?_, fun p hp => List.mem_cons_of_mem _ (hupper p hp)⟩
      rcases hlower p hp with hfirst | hp
      · rw [Option.some.inj hfirst]
        exact List.mem_cons_self
      · exact List.mem_cons_of_mem _ hp

/-- The ends of a bucket are finite, if the boundaries are. -/
theorem isFinite_ends (hfinite : ∀ p ∈ points, p.isFinite = true) (h : b ∈ buckets none points) :
    (∀ p ∈ b.lower, p.isFinite = true) ∧ ∀ p ∈ b.upper, p.isFinite = true := by
  obtain ⟨hlower, hupper⟩ := ends_of_mem_buckets h
  exact ⟨fun p hp => hfinite p ((hlower p hp).resolve_left (by simp)),
    fun p hp => hfinite p (hupper p hp)⟩

/-! ## Data in buckets -/

/-- The boundaries increase strictly, as the database compares them. -/
def Increase (db : Warehouse δ) (points : List Binary64) : Prop :=
  points.Pairwise fun p q => db.float p < db.float q

/-- Buckets after a boundary begin there or later. -/
theorem exists_lower_of_mem_buckets (hincrease : Increase db (p :: points))
    (h : b ∈ buckets (some p) points) : ∃ q ∈ b.lower, db.float p ≤ db.float q := by
  induction points generalizing p with
  | nil =>
    obtain rfl := List.mem_singleton.mp h
    exact ⟨p, rfl, le_rfl⟩
  | cons first rest ih =>
    rcases List.mem_cons.mp h with rfl | hrest
    · exact ⟨p, rfl, le_rfl⟩
    · obtain ⟨habove, hincrease⟩ := List.pairwise_cons.mp hincrease
      obtain ⟨q, hq, hle⟩ := ih hincrease hrest
      exact ⟨q, hq, (habove first List.mem_cons_self).le.trans hle⟩

theorem contains_bucketOf (h : ∀ p ∈ lower, db.float p ≤ v) :
    (bucketOf db v lower points).Contains db v := by
  induction points generalizing lower with
  | nil => exact ⟨h, by simp [bucketOf]⟩
  | cons p rest ih =>
    rw [bucketOf]
    split
    · rename_i hlt
      exact ⟨h, by simpa using hlt⟩
    · rename_i hge
      exact ih (by simpa using hge)

/-- No datum is in two buckets. -/
theorem eq_bucketOf_of_contains (hincrease : Increase db points)
    (hmem : b ∈ buckets lower points) (h : b.Contains db v) : b = bucketOf db v lower points := by
  induction points generalizing lower with
  | nil => exact List.mem_singleton.mp hmem
  | cons p rest ih =>
    rw [bucketOf]
    rcases List.mem_cons.mp hmem with rfl | hrest
    · rw [if_pos (h.2 p rfl)]
    · obtain ⟨q, hq, hle⟩ := exists_lower_of_mem_buckets hincrease hrest
      rw [if_neg (not_lt.mpr (hle.trans (h.1 q hq)))]
      exact ih (List.pairwise_cons.mp hincrease).2 hrest

/-- No boundary is inside a bucket. -/
theorem le_lower_or_upper_le (hincrease : Increase db points) (hmem : b ∈ buckets lower points)
    (hp : p ∈ points) :
    (∃ q ∈ b.lower, db.float p ≤ db.float q) ∨ ∃ q ∈ b.upper, db.float q ≤ db.float p := by
  induction points generalizing lower with
  | nil => cases hp
  | cons first rest ih =>
    obtain ⟨habove, hrest⟩ := List.pairwise_cons.mp hincrease
    rcases List.mem_cons.mp hmem with rfl | hmem
    · refine .inr ⟨first, rfl, ?_⟩
      rcases List.mem_cons.mp hp with rfl | hp
      · exact le_rfl
      · exact (habove p hp).le
    · rcases List.mem_cons.mp hp with rfl | hp
      · exact .inl (exists_lower_of_mem_buckets hincrease hmem)
      · exact ih hrest hmem hp

section

variable (hincrease : Increase db points) (hmem : b ∈ buckets lower points)
  (hcontains : b.Contains db v) (hp : p ∈ points)

include hincrease hmem hcontains hp

theorem float_le_iff : db.float p ≤ v ↔ ∃ q ∈ b.lower, db.float p ≤ db.float q := by
  constructor
  · intro hle
    refine (le_lower_or_upper_le hincrease hmem hp).resolve_right ?_
    rintro ⟨q, hq, habove⟩
    exact absurd (habove.trans hle) (not_le.mpr (hcontains.2 q hq))
  · rintro ⟨q, hq, hbelow⟩
    exact hbelow.trans (hcontains.1 q hq)

theorem lt_float_iff : v < db.float p ↔ ∃ q ∈ b.upper, db.float q ≤ db.float p := by
  constructor
  · intro hlt
    refine (le_lower_or_upper_le hincrease hmem hp).resolve_left ?_
    rintro ⟨q, hq, hbelow⟩
    exact absurd (hbelow.trans (hcontains.1 q hq)) (not_le.mpr hlt)
  · rintro ⟨q, hq, habove⟩
    exact (hcontains.2 q hq).trans_le habove

end

/-- Boundaries that are the same number are the same. -/
theorem eq_of_float_eq (hincrease : Increase db points) {q : Binary64} (hp : p ∈ points)
    (hq : q ∈ points) (h : db.float p = db.float q) : p = q :=
  List.inj_on_of_nodup_map (List.pairwise_map.mpr (hincrease.imp ne_of_lt)) hp hq h

/-- A bucket ends at the boundaries next to each datum in it. -/
theorem encloses_of_contains (hincrease : Increase db points) (hmem : b ∈ buckets none points)
    (h : b.Contains db v) : b.Encloses db points v := by
  obtain ⟨hlower, hupper⟩ := ends_of_mem_buckets hmem
  replace hlower (p) (hp : p ∈ b.lower) : p ∈ points := (hlower p hp).resolve_left (by simp)
  refine ⟨fun p => ⟨fun hp => ?_, ?_⟩, fun p => ⟨fun hp => ?_, ?_⟩⟩
  · refine ⟨hlower p hp, h.1 p hp, fun p' hp' hle => ?_⟩
    obtain ⟨q, hq, hbelow⟩ := (float_le_iff hincrease hmem h hp').mp hle
    exact (Option.some.inj (hq.symm.trans hp)) ▸ hbelow
  · rintro ⟨hp, hle, hgreatest⟩
    obtain ⟨q, hq, hbelow⟩ := (float_le_iff hincrease hmem h hp).mp hle
    have hsame := hbelow.antisymm (hgreatest q (hlower q hq) (h.1 q hq))
    rw [eq_of_float_eq hincrease hp (hlower q hq) hsame]
    exact hq
  · refine ⟨hupper p hp, h.2 p hp, fun p' hp' hlt => ?_⟩
    obtain ⟨q, hq, habove⟩ := (lt_float_iff hincrease hmem h hp').mp hlt
    exact (Option.some.inj (hq.symm.trans hp)) ▸ habove
  · rintro ⟨hp, hlt, hleast⟩
    obtain ⟨q, hq, habove⟩ := (lt_float_iff hincrease hmem h hp).mp hlt
    have hsame := (hleast q (hupper q hq) (h.2 q hq)).antisymm habove
    rw [eq_of_float_eq hincrease hp (hupper q hq) hsame]
    exact hq

/-- Two data are in the same bucket exactly if no boundary is between them. -/
theorem bucketOf_eq_iff (hincrease : Increase db points) :
    bucketOf db v none points = bucketOf db v' none points ↔
      ∀ p ∈ points, db.float p ≤ v ↔ db.float p ≤ v' := by
  have hmem := bucketOf_mem_buckets db v none points
  have hcontains : (bucketOf db v none points).Contains db v := contains_bucketOf (by simp)
  constructor
  · intro hsame p hp
    have hcontains' : (bucketOf db v none points).Contains db v' :=
      hsame ▸ contains_bucketOf (by simp)
    rw [float_le_iff hincrease hmem hcontains hp, float_le_iff hincrease hmem hcontains' hp]
  · intro hsame
    -- the branches are decided alike, whatever the buckets begin with
    clear hincrease hmem hcontains
    generalize (none : Option Binary64) = lower
    induction points generalizing lower with
    | nil => rfl
    | cons p rest ih =>
      obtain ⟨hp, hrest⟩ := List.forall_mem_cons.mp hsame
      rw [bucketOf, bucketOf, ih hrest]
      simp only [← not_le, hp]

end Histogram

/-! ## Labels -/

namespace Bucket

/-- Texts of numbers have some character, and the mark of labels is not among them. -/
theorem toList_toString {p : Binary64} (h : p.isFinite = true) :
    (toString p).toList ≠ [] ∧ ';' ∉ (toString p).toList := by
  have hfits {digits : List Char} (hdigits : Run.number.fits digits = true) :
      digits ≠ [] ∧ ';' ∉ digits := by
    obtain ⟨c, rest, rfl, hhead, hrest⟩ := Run.fits_eq_true_iff.mp hdigits
    refine ⟨List.cons_ne_nil _ _, fun hmem => ?_⟩
    rcases List.mem_cons.mp hmem with rfl | hmem
    · cases hhead
    · cases hrest _ hmem
  have hnumber := Binary64.isNumber_toString h
  generalize (toString p).toList = text at hnumber ⊢
  unfold isNumber at hnumber
  split at hnumber
  · exact ⟨List.cons_ne_nil _ _, by simpa using (hfits hnumber).2⟩
  · exact hfits hnumber

theorem not_mem_edge {e : Option Binary64} (h : ∀ p ∈ e, p.isFinite = true) :
    ';' ∉ (edge e).toList := by
  cases e with
  | none => simp [edge]
  | some p => exact (toList_toString (h p rfl)).2

/-- The text of an end tells which end it is. -/
theorem eq_of_edge_eq {e e' : Option Binary64} (h : ∀ p ∈ e, p.isFinite = true)
    (h' : ∀ p ∈ e', p.isFinite = true) (hsame : edge e = edge e') : e = e' := by
  cases e with
  | none => cases e' with
    | none => rfl
    | some p' =>
      have hempty : toString p' = "" := hsame.symm
      exact absurd (congrArg String.toList hempty) (toList_toString (h' p' rfl)).1
  | some p => cases e' with
    | none =>
      have hempty : toString p = "" := hsame
      exact absurd (congrArg String.toList hempty) (toList_toString (h p rfl)).1
    | some p' => exact congrArg some (Binary64.eq_of_toString_eq (h p rfl) (h' p' rfl) hsame)

/-- The label of a bucket tells which bucket it is. -/
theorem eq_of_label_eq {b b' : Bucket}
    (hb : (∀ p ∈ b.lower, p.isFinite = true) ∧ ∀ p ∈ b.upper, p.isFinite = true)
    (hb' : (∀ p ∈ b'.lower, p.isFinite = true) ∧ ∀ p ∈ b'.upper, p.isFinite = true)
    (h : b.label = b'.label) : b = b' := by
  have hlists : (edge b.lower).toList ++ ';' :: (edge b.upper).toList =
      (edge b'.lower).toList ++ ';' :: (edge b'.upper).toList := by
    simpa [label] using congrArg String.toList h
  obtain ⟨hlowers, -, huppers⟩ :=
    (List.append_cons_inj_of_notMem (not_mem_edge hb.1) (not_mem_edge hb.2)).mp hlists
  obtain ⟨lower, upper⟩ := b
  obtain ⟨lower', upper'⟩ := b'
  obtain rfl := eq_of_edge_eq hb.1 hb'.1 (String.toList_injective hlowers)
  obtain rfl := eq_of_edge_eq hb.2 hb'.2 (String.toList_injective huppers)
  rfl

end Bucket

/-! ## What a case expression picks -/

namespace Lexeme

def number? : Lexeme → Option String
  | .number text => some text
  | _ => none

def quoted? : Lexeme → Option String
  | .quoted text => some text
  | _ => none

end Lexeme

namespace Dimension

open Histogram

/-- The branches that compare a value with boundaries. -/
def belowBranches (value : Expr) (labels : List String) (points : List Binary64) :
    List (Expr × Expr) :=
  (points.zip (labels.map Expr.string)).map fun (point, label) =>
    (Expr.compare value .lt (.literal (.float point)), label)

theorem belowBranches_cons (value : Expr) (lower : Option Binary64) (p : Binary64)
    (rest : List Binary64) :
    belowBranches value (bucketLabels (Bucket.edge lower) (p :: rest)) (p :: rest) =
      (.compare value .lt (.literal (.float p)), .string (Bucket.label ⟨lower, some p⟩)) ::
        belowBranches value (bucketLabels (Bucket.edge (some p)) rest) rest :=
  rfl

section

variable (db : Warehouse δ) (env : Env δ) {value : Expr} {points : List Binary64}

/-- Null has no bucket. -/
theorem eval_histogramCase_of_null (h : value.eval db env = none) :
    (histogramCase value points).eval db env = none := by
  rw [histogramCase, Expr.eval, Expr.evalBranches, if_pos]
  · rfl
  · rw [Expr.eval, h, db.toTruth_ofTruth]
    rfl

/-- The last label is that of the last bucket. -/
theorem getLast?_bucketLabels_cons (lower : Option Binary64) (p : Binary64)
    (rest : List Binary64) :
    ((bucketLabels (Bucket.edge lower) (p :: rest)).map Expr.string).getLast? =
      ((bucketLabels (Bucket.edge (some p)) rest).map Expr.string).getLast? := by
  obtain ⟨label, labels, hlabels⟩ :=
    List.exists_cons_of_ne_nil (bucketLabels_ne_nil (Bucket.edge (some p)) rest)
  change (_ :: (bucketLabels (Bucket.edge (some p)) rest).map Expr.string).getLast? = _
  rw [hlabels, List.map_cons, List.getLast?_cons_cons]

/-- A case expression picks the first bucket whose upper end is above a datum. -/
theorem eval_histogramCase {v : δ} (h : value.eval db env = some v) :
    (histogramCase value points).eval db env =
      some (db.text (bucketOf db v none points).label) := by
  have hnull : ¬ db.toTruth ((Expr.isNull value).eval db env) = .holds := by
    rw [Expr.eval, h, db.toTruth_ofTruth]
    simp [Truth.ofBool]
  rw [histogramCase, Expr.eval, Expr.evalBranches, if_neg hnull]
  -- the text before the first label is that of an open end
  change Expr.evalBranches db env
    (Expr.evalOption db env ((bucketLabels (Bucket.edge none) points).map Expr.string).getLast?)
    (belowBranches value (bucketLabels (Bucket.edge none) points) points) = _
  generalize (none : Option Binary64) = lower
  induction points generalizing lower with
  | nil => simp [bucketLabels, bucketOf, belowBranches, Bucket.label, Bucket.edge,
      Expr.evalBranches, Expr.evalOption, Expr.eval, Expr.string, Warehouse.literal]
  | cons p rest ih =>
    have hbranch : db.toTruth ((Expr.compare value .lt (.literal (.float p))).eval db env) =
        .ofBool (decide (v < db.float p)) := by
      rw [Expr.eval, Expr.eval, h, db.toTruth_ofTruth]
      rfl
    rw [getLast?_bucketLabels_cons, belowBranches_cons, Expr.evalBranches, hbranch, bucketOf]
    by_cases hlt : v < db.float p
    · rw [if_pos (by simp [hlt, Truth.ofBool]), if_pos hlt]
      rfl
    · rw [if_neg (by simp [hlt, Truth.ofBool]), if_neg hlt]
      exact ih (some p)

end

/-! ## How buckets are written -/

/-- How the branches for the boundaries are written, and the last one. -/
def belowLexemes (value : List Lexeme) (lower : Option Binary64) : List Binary64 → List Lexeme
  | [] => Lexeme.spaced "ELSE" ++ [.quoted (Bucket.label ⟨lower, none⟩)]
  | p :: rest =>
    Lexeme.spaced "WHEN" ++ value ++ [.space, .symbol "<", .space, .number (toString p)] ++
      Lexeme.spaced "THEN" ++ [.quoted (Bucket.label ⟨lower, some p⟩)] ++
      belowLexemes value (some p) rest

theorem lexemes_below (dialect : Dialect) (value : Expr) (lower : Option Binary64)
    (points : List Binary64) :
    Expr.lexemesBranches dialect
        (belowBranches value (bucketLabels (Bucket.edge lower) points) points) ++
      Expr.lexemesElse dialect
        ((bucketLabels (Bucket.edge lower) points).map Expr.string).getLast? =
      belowLexemes (value.lexemes dialect) lower points := by
  induction points generalizing lower with
  | nil => simp [belowLexemes, belowBranches, bucketLabels, Bucket.label, Bucket.edge,
      Expr.lexemesBranches, Expr.lexemesElse, Expr.string, Expr.lexemes, Literal.lexemes]
  | cons p rest ih =>
    rw [getLast?_bucketLabels_cons, belowBranches_cons, Expr.lexemesBranches, List.append_assoc,
      ih (some p), belowLexemes]
    simp [Expr.lexemes, Expr.string, Literal.lexemes, Comparison.lexeme, Comparison.symbol,
      Lexeme.spaced]

/-- How the choice of a bucket is written. -/
theorem lexemes_histogramCase (dialect : Dialect) (value : Expr) (points : List Binary64) :
    (histogramCase value points).lexemes dialect =
      .word "CASE" :: Lexeme.spaced "WHEN" ++ value.lexemes dialect ++
        .space :: Lexeme.words ["IS", "NULL"] ++ Lexeme.spaced "THEN" ++ [.word "NULL"] ++
        belowLexemes (value.lexemes dialect) none points ++ [.space, .word "END"] := by
  rw [← lexemes_below, histogramCase, Expr.lexemes, Expr.lexemesBranches, Expr.lexemes]
  simp [belowBranches, Expr.null, Expr.lexemes, Literal.lexemes, Bucket.edge]

/-- The numbers that are written are those of the comparisons, and the texts are the labels. -/
theorem filterMap_histogramCase (dialect : Dialect) (qualifier : Option String) (field : String)
    (points : List Binary64) :
    ((histogramCase (columnOf qualifier field) points).lexemes dialect).filterMap Lexeme.number? =
        points.map toString ∧
      ((histogramCase (columnOf qualifier field) points).lexemes dialect).filterMap
        Lexeme.quoted? = (buckets none points).map Bucket.label := by
  have hcolumn : ((columnOf qualifier field).lexemes dialect).filterMap Lexeme.number? = [] ∧
      ((columnOf qualifier field).lexemes dialect).filterMap Lexeme.quoted? = [] := by
    cases qualifier <;> exact ⟨rfl, rfl⟩
  rw [lexemes_histogramCase]
  generalize (columnOf qualifier field).lexemes dialect = value at hcolumn ⊢
  obtain ⟨hnumber, hquoted⟩ := hcolumn
  have hbelow (lower : Option Binary64) :
      (belowLexemes value lower points).filterMap Lexeme.number? = points.map toString ∧
        (belowLexemes value lower points).filterMap Lexeme.quoted? =
          (buckets lower points).map Bucket.label := by
    induction points generalizing lower with
    | nil => exact ⟨rfl, rfl⟩
    | cons p rest ih =>
      obtain ⟨hnumbers, hlabels⟩ := ih (some p)
      simp [belowLexemes, Lexeme.spaced, Lexeme.number?, Lexeme.quoted?, List.filterMap_cons,
        hnumber, hquoted, hnumbers, hlabels, buckets]
  obtain ⟨hnumbers, hlabels⟩ := hbelow none
  simp [Lexeme.spaced, Lexeme.words, Lexeme.number?, Lexeme.quoted?, List.filterMap_cons,
    hnumber, hquoted, hnumbers, hlabels]

end Dimension

/-! ## Databases that compare doubles -/

/-- A database has finite doubles in their order, whether it takes them for the numbers that they
are or for those that their texts stand for. -/
def Warehouse.OrdersFloats (db : Warehouse δ) : Prop :=
  ∀ x y : Binary64, x.isFinite = true → y.isFinite = true → Binary64.lt x y = true →
    db.float x < db.float y

theorem Warehouse.IsExact.ordersFloats {db : Warehouse δ} (h : db.IsExact) : db.OrdersFloats := by
  intro x y hx hy hlt
  rw [h.float x hx, h.float y hy]
  exact db.number.lt_iff_lt.mpr ((Binary64.lt_iff hx hy).mp hlt)

/-! ## How many buckets boundaries make -/

namespace Histogram

variable {start finish size : Binary64} {points : List Binary64}

/-- A histogram that is longer than a bucket has a bucket. -/
theorem one_le_ceiling_quotient (hsize : size.isFinite = true)
    (hpos : Binary64.lt (Binary64.ofRat 0) size = true)
    (hwide : Binary64.lt size (Binary64.sub finish start) = true)
    (hquotient : (quotient Arithmetic.binary64 start finish size).isFinite = true) :
    1 ≤ (quotient Arithmetic.binary64 start finish size).toRat.ceil := by
  change (Binary64.sub (Binary64.div (Binary64.sub finish start) size)
    (Binary64.ofRat slack)).isFinite = true at hquotient
  change 1 ≤ (Binary64.sub (Binary64.div (Binary64.sub finish start) size)
    (Binary64.ofRat slack)).toRat.ceil
  generalize Binary64.sub finish start = length at hwide hquotient ⊢
  have hzero : (Binary64.ofRat 0).toRat = 0 := by decide +kernel
  have hsize' : 0 < size.toRat := hzero ▸ (Binary64.lt_iff (by decide) hsize).mp hpos
  have hlength : length.isFinite = true := by
    cases length with
    | finite => rfl
    | nan => cases size <;> cases hwide
    | infinite negative =>
      cases size with
      | finite => cases hquotient
      | _ => cases hsize
  have hwide' : size.toRat < length.toRat := (Binary64.lt_iff hsize hlength).mp hwide
  -- the quotient is not rounded below one, and the slack takes less than a half of that
  have hratio : (2 : ℚ) ^ (0 : Int) ≤ length.toRat / size.toRat := by
    rw [zpow_zero, one_le_div hsize']
    exact hwide'.le
  rw [Binary64.div_of_toRat_pos (hsize'.trans hwide') hsize'] at hquotient ⊢
  generalize hrounded : Binary64.ofRat (length.toRat / size.toRat) = rounded at hquotient ⊢
  have hfinite : rounded.isFinite = true := by
    cases rounded with
    | finite => rfl
    | nan => cases hquotient
    | infinite => cases hquotient
  have hone : 1 ≤ rounded.toRat := by
    have hle := Binary64.le_toRat_ofRat (by decide) hratio (hrounded.symm ▸ hfinite)
    rwa [hrounded, zpow_zero] at hle
  have hslack : (Binary64.ofRat slack).toRat ≤ 1 / 2 := by decide +kernel
  rw [Binary64.sub_of_toRat_ne_zero hfinite (by decide +kernel) (by linarith)] at hquotient ⊢
  have hhalf : (2 : ℚ) ^ (-1 : Int) ≤ rounded.toRat - (Binary64.ofRat slack).toRat := by
    norm_num
    linarith
  have hle := Binary64.le_toRat_ofRat (by decide) hhalf hquotient
  have hpositive : ((0 : Int) : ℚ) < _ := lt_of_lt_of_le (by norm_num) hle
  exact Int.add_one_le_iff.mpr (Rat.lt_ceil_iff.mpr hpositive)

/-- The boundaries increase strictly from one end of a histogram to the other one. -/
theorem pairwise_of_increasesBelow
    (h : increasesBelow Arithmetic.binary64 start finish points = true) :
    (start :: points).Pairwise (fun p q => Binary64.lt p q = true) ∧
      ∀ p ∈ points, Binary64.lt p finish = true := by
  have : Trans (fun p q => Binary64.lt p q = true) (fun p q => Binary64.lt p q = true)
      (fun p q => Binary64.lt p q = true) := ⟨Binary64.lt_trans⟩
  obtain ⟨hchain, hbelow⟩ := increasesBelow_eq_true_iff.mp h
  exact ⟨List.isChain_iff_pairwise.mp hchain, hbelow⟩

/-- There is one boundary less than there are buckets. -/
theorem bucketCount?_eq_length_succ
    (h : points? Arithmetic.binary64 start finish size = some points) :
    bucketCount? Arithmetic.binary64 start finish size = some (points.length + 1) ∧
      points.length + 1 ≤ maxBuckets := by
  obtain ⟨count, hcount, hpoints, -⟩ := points?_eq_some_iff.mp h
  obtain ⟨⟨-, -, hsize⟩, ⟨-, hpos, hwide⟩, hquotient, hmax, htoNat⟩ :=
    bucketCount?_eq_some_iff.mp hcount
  have hone := one_le_ceiling_quotient hsize hpos hwide hquotient
  change _ ≤ (maxBuckets : Int) at hmax
  change (quotient Arithmetic.binary64 start finish size).toRat.ceil ≤ _ at hmax
  change (quotient Arithmetic.binary64 start finish size).toRat.ceil.toNat = count at htoNat
  have hlength : points.length + 1 = count := by
    rw [hpoints, length_boundaries]
    omega
  rw [hlength]
  exact ⟨hcount, by omega⟩

theorem increase_of_pairwise {db : Warehouse δ} (hdb : db.OrdersFloats)
    (hfinite : ∀ p ∈ points, p.isFinite = true)
    (h : points.Pairwise fun p q => Binary64.lt p q = true) : Increase db points :=
  h.imp_of_mem fun {p q} hp hq hlt => hdb p q (hfinite p hp) (hfinite q hq) hlt

/-- **A histogram puts every number into one bucket.** The boundaries increase strictly between
the ends of the histogram, one less than there are buckets. The numbers that a statement compares
with are the boundaries, and the texts that it chooses from are the labels of the buckets between
them. Null has no bucket. A number is in one bucket, from the greatest boundary that is not above
it to the least one above it, and the label of that bucket is chosen for it. Labels are the same
exactly if no boundary is between the numbers. -/
theorem partition_of_points? {db : Warehouse δ} (hdb : db.OrdersFloats)
    (h : points? Arithmetic.binary64 start finish size = some points) :
    (points.Pairwise (fun p q => Binary64.lt p q = true) ∧
      (∀ p ∈ points, Binary64.lt start p = true ∧ Binary64.lt p finish = true) ∧
      bucketCount? Arithmetic.binary64 start finish size = some (points.length + 1) ∧
      points.length + 1 ≤ maxBuckets) ∧
    (∀ (dialect : Dialect) (qualifier : Option String) (field : String),
      let written :=
        (Dimension.histogramCase (columnOf qualifier field) points).lexemes dialect
      written.filterMap Lexeme.number? = points.map toString ∧
        written.filterMap Lexeme.quoted? = (buckets none points).map Bucket.label) ∧
    (∀ (env : Env δ) (value : Expr),
      (value.eval db env = none →
        (Dimension.histogramCase value points).eval db env = none) ∧
      ∀ v : δ, value.eval db env = some v →
        ∃ b ∈ buckets none points, b.Contains db v ∧ b.Encloses db points v ∧
          (∀ b' ∈ buckets none points, b'.Contains db v → b' = b) ∧
          (Dimension.histogramCase value points).eval db env = some (db.text b.label)) ∧
    ∀ b ∈ buckets none points, ∀ b' ∈ buckets none points, ∀ v v' : δ,
      b.Contains db v → b'.Contains db v' →
        (b.label = b'.label ↔ ∀ p ∈ points, db.float p ≤ v ↔ db.float p ≤ v') := by
  obtain ⟨-, -, -, hincreases⟩ := points?_eq_some_iff.mp h
  obtain ⟨hpairwise, hbelow⟩ := pairwise_of_increasesBelow hincreases
  obtain ⟨habove, hpairwise⟩ := List.pairwise_cons.mp hpairwise
  have hfinite := isFinite_of_points? h
  have hincrease := increase_of_pairwise hdb hfinite hpairwise
  obtain ⟨hcount, hmax⟩ := bucketCount?_eq_length_succ h
  refine ⟨⟨hpairwise, fun p hp => ⟨habove p hp, hbelow p hp⟩, hcount, hmax⟩,
    fun dialect qualifier field => Dimension.filterMap_histogramCase dialect qualifier field points,
    fun env value => ⟨Dimension.eval_histogramCase_of_null db env, fun v hv => ?_⟩, ?_⟩
  · have hmem := bucketOf_mem_buckets db v none points
    have hcontains : (bucketOf db v none points).Contains db v := contains_bucketOf (by simp)
    exact ⟨_, hmem, hcontains, encloses_of_contains hincrease hmem hcontains,
      fun b' hb' => eq_bucketOf_of_contains hincrease hb',
      Dimension.eval_histogramCase db env hv⟩
  · intro b hb b' hb' v v' hv hv'
    rw [← bucketOf_eq_iff hincrease, ← eq_bucketOf_of_contains hincrease hb hv,
      ← eq_bucketOf_of_contains hincrease hb' hv']
    constructor
    · exact Bucket.eq_of_label_eq (isFinite_ends hfinite hb) (isFinite_ends hfinite hb')
    · rintro rfl
      rfl

/-- Four buckets. The boundary between two of them is in the upper one. -/
theorem partition_of_points?_quarters :
    points? Arithmetic.binary64 (.ofNat 0) (.ofNat 100) (.ofNat 25) =
        some [.ofNat 25, .ofNat 50, .ofNat 75] ∧
      (Dimension.histogramCase (.int 50) [.ofNat 25, .ofNat 50, .ofNat 75]).eval
          (Warehouse.inMemory fun _ _ => []) (.ofRow fun _ => []) =
        some (StoredDatum.text "50;75") := by
  have hpoints : points? Arithmetic.binary64 (.ofNat 0) (.ofNat 100) (.ofNat 25) =
      some [.ofNat 25, .ofNat 50, .ofNat 75] := by decide +kernel
  refine ⟨hpoints, ?_⟩
  obtain ⟨-, -, heval, -⟩ :=
    partition_of_points? (Warehouse.inMemory_isExact fun _ _ => []).ordersFloats hpoints
  obtain ⟨b, -, -, -, hunique, hlabel⟩ :=
    (heval (.ofRow fun _ => []) (.int 50)).2 (StoredDatum.number (50 : Int)) rfl
  have hcontains : Bucket.Contains (Warehouse.inMemory fun _ _ => [])
      ⟨some (.ofNat 50), some (.ofNat 75)⟩ (StoredDatum.number (50 : Int)) := by
    constructor
    · rintro p ⟨rfl⟩
      exact StoredDatum.number.le_iff_le.mpr (by decide +kernel)
    · rintro p ⟨rfl⟩
      exact StoredDatum.number.lt_iff_lt.mpr (by decide +kernel)
  rw [hlabel, ← hunique _ (by simp [buckets]) hcontains]
  decide +kernel

end Histogram

end PagedQuery
