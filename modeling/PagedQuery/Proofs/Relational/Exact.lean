import Mathlib.Algebra.BigOperators.Group.Multiset.Basic
import Mathlib.Data.List.Sort
import Mathlib.Data.String.Basic
import Mathlib.Data.Sum.Order
import PagedQuery.Proofs.Relational.Evaluation

/-!
# Exact databases

A database is exact if its arithmetic is that of rational numbers. One such
database keeps numbers and texts in memory.

* `keyBefore_total`, `not_keyBefore_trans`: sort keys can be put in order;
* `pairwise_insertionSort_keyBefore`: members in the order of their sort keys;
* `Warehouse.IsExact`: exact arithmetic;
* `StoredDatum`, `Warehouse.inMemory`: numbers and texts in memory.
-/

namespace PagedQuery

variable {δ : Type} [LinearOrder δ]

/-! ## Order of sort keys -/

section

variable {nullsFirst : Direction → Bool}

theorem cellBefore_asymm {direction : Direction} {a b : Option δ}
    (h : cellBefore nullsFirst direction a b = true) :
    cellBefore nullsFirst direction b a = false := by
  cases a <;> cases b <;> cases direction <;> simp_all [cellBefore, le_of_lt]

/-- Cells of which neither comes before the other one are the same. -/
theorem eq_of_not_cellBefore {direction : Direction} {a b : Option δ}
    (h : cellBefore nullsFirst direction a b = false)
    (h' : cellBefore nullsFirst direction b a = false) : a = b := by
  cases a <;> cases b <;> cases direction <;> simp_all [cellBefore] <;>
    exact le_antisymm ‹_› ‹_›

theorem not_cellBefore_trans {direction : Direction} {a b c : Option δ}
    (hab : cellBefore nullsFirst direction b a = false)
    (hbc : cellBefore nullsFirst direction c b = false) :
    cellBefore nullsFirst direction c a = false := by
  cases a <;> cases b <;> cases c <;> cases direction <;> simp_all [cellBefore] <;>
    exact le_trans ‹_› ‹_›

theorem keyBefore_cons_eq_false_iff {direction : Direction} {directions : List Direction}
    {as bs : List (Option δ)} :
    keyBefore nullsFirst (direction :: directions) as bs = false ↔
      cellBefore nullsFirst direction as.head?.join bs.head?.join = false ∧
        (as.head?.join = bs.head?.join →
          keyBefore nullsFirst directions as.tail bs.tail = false) := by
  rw [keyBefore, Bool.or_eq_false_iff, Bool.and_eq_false_imp, decide_eq_true_iff]

/-- Of two keys, one does not come before the other one. -/
theorem keyBefore_total (directions : List Direction) (as bs : List (Option δ)) :
    keyBefore nullsFirst directions as bs = false ∨
      keyBefore nullsFirst directions bs as = false := by
  induction directions generalizing as bs with
  | nil => exact .inl rfl
  | cons direction directions ih =>
    simp only [keyBefore_cons_eq_false_iff]
    by_cases hsame : as.head?.join = bs.head?.join
    · have hcell : cellBefore nullsFirst direction bs.head?.join bs.head?.join = false := by
        by_contra hbefore
        rw [Bool.not_eq_false] at hbefore
        exact Bool.false_ne_true ((cellBefore_asymm hbefore).symm.trans hbefore)
      rw [hsame]
      exact (ih as.tail bs.tail).imp (⟨hcell, fun _ => ·⟩) (⟨hcell, fun _ => ·⟩)
    · cases hcell : cellBefore nullsFirst direction as.head?.join bs.head?.join with
      | false => exact .inl ⟨rfl, fun heq => absurd heq hsame⟩
      | true => exact .inr ⟨cellBefore_asymm hcell, fun heq => absurd heq.symm hsame⟩

theorem not_keyBefore_trans {directions : List Direction} {as bs cs : List (Option δ)}
    (hab : keyBefore nullsFirst directions bs as = false)
    (hbc : keyBefore nullsFirst directions cs bs = false) :
    keyBefore nullsFirst directions cs as = false := by
  induction directions generalizing as bs cs with
  | nil => rfl
  | cons direction directions ih =>
    rw [keyBefore_cons_eq_false_iff] at hab hbc ⊢
    refine ⟨not_cellBefore_trans hab.1 hbc.1, fun hsame => ?_⟩
    have hsame' : cs.head?.join = bs.head?.join :=
      eq_of_not_cellBefore hbc.1 (hsame ▸ hab.1)
    exact ih (hab.2 (hsame'.symm.trans hsame)) (hbc.2 hsame')

/-- Members that are inserted one after the other come in the order of their keys. -/
theorem pairwise_insertionSort_keyBefore (directions : List Direction) (members : List Nat)
    (sortKey : Nat → List (Option δ)) :
    (members.insertionSort fun i j =>
        keyBefore nullsFirst directions (sortKey j) (sortKey i) = false).Pairwise fun i j =>
      keyBefore nullsFirst directions (sortKey j) (sortKey i) = false := by
  have : Std.Total fun i j => keyBefore nullsFirst directions (sortKey j) (sortKey i) = false :=
    ⟨fun i j => keyBefore_total _ (sortKey j) (sortKey i)⟩
  have : IsTrans Nat fun i j => keyBefore nullsFirst directions (sortKey j) (sortKey i) = false :=
    ⟨fun _ _ _ => not_keyBefore_trans⟩
  exact List.pairwise_insertionSort _ members

end

/-! ## Exact arithmetic -/

/-- Numbers are added up, multiplied and compared as rational numbers. -/
structure Warehouse.IsExact (db : Warehouse δ) : Prop where
  float : ∀ x : Binary64, x.isFinite = true → db.float x = db.number x.toRat
  multiply : ∀ a b : ℚ, db.arithmetic .multiply (db.number a) (db.number b) =
    some (db.number (a * b))
  divide : ∀ a b : ℚ, b ≠ 0 → db.arithmetic .divide (db.number a) (db.number b) =
    some (db.number (a / b))

/-! ## Numbers and texts in memory -/

/-- A number, or a text. Numbers come before texts. -/
abbrev StoredDatum :=
  ℚ ⊕ₗ String

namespace StoredDatum

def number : ℚ ↪o StoredDatum :=
  { toFun := fun x => toLex (.inl x)
    inj' := toLex.injective.comp Sum.inl_injective
    map_rel_iff' := Sum.Lex.inl_le_inl_iff }

def text (s : String) : StoredDatum :=
  toLex (.inr s)

/-- The number that a datum counts as. -/
def amount (datum : StoredDatum) : ℚ :=
  match ofLex datum with
  | .inl x => x
  | .inr _ => 0

/-- The result of an operator, null for what is divided by zero. -/
def arithmetic (op : ArithmeticOp) (a b : StoredDatum) : Option StoredDatum :=
  match op with
  | .add => some (number (a.amount + b.amount))
  | .subtract => some (number (a.amount - b.amount))
  | .multiply => some (number (a.amount * b.amount))
  | .divide => if b.amount = 0 then none else some (number (a.amount / b.amount))

def ofValue : Value → Option StoredDatum
  | .null => none
  | .bool b => some (number (if b then 1 else 0))
  | .int i => some (number i)
  | .float x => some (number x.toRat)
  | .string s => some (text s)
  | .date d => some (text d.text)
  | .timestamp t => some (text t.text)

end StoredDatum

/-- Null comes last in ascending order. -/
def nullsFirstDescending : Direction → Bool
  | .ascending => false
  | .descending => true

/-- A database with tables in memory, without queries of the caller and without functions. Truth
values are numbers. -/
def Warehouse.inMemory (table : String → String → List (Row StoredDatum)) :
    Warehouse StoredDatum where
  table := table
  custom _ := []
  truth := ⟨fun b => StoredDatum.number (if b then 1 else 0), fun a b h => by
    cases a <;> cases b <;> simp_all⟩
  number := StoredDatum.number
  float x := StoredDatum.number x.toRat
  text := StoredDatum.text
  value := StoredDatum.ofValue
  isMatch _ _ _ := false
  arithmetic := StoredDatum.arithmetic
  call _ _ := none
  cast _ value := value
  raw sql _ := some (StoredDatum.text sql)
  timestampSentinel dialect :=
    match dialect.timestampSentinel with
    | .raw sql => StoredDatum.text sql
    | _ => StoredDatum.text ""
  raw_timestampSentinel dialect sql h env := by rw [h]
  sum data := if data = 0 then none else some (StoredDatum.number (data.map StoredDatum.amount).sum)
  average data :=
    if data = 0 then none
    else some (StoredDatum.number ((data.map StoredDatum.amount).sum / data.card))
  nullsFirst := nullsFirstDescending
  arrange orderBy members sortKey :=
    members.insertionSort fun i j =>
      keyBefore nullsFirstDescending (orderBy.map Prod.snd) (sortKey j) (sortKey i) = false
  arrange_perm orderBy members sortKey := List.perm_insertionSort _ members
  arrange_pairwise _ _ _ := pairwise_insertionSort_keyBefore ..

theorem Warehouse.inMemory_isExact (table : String → String → List (Row StoredDatum)) :
    (Warehouse.inMemory table).IsExact where
  float _ _ := rfl
  multiply _ _ := rfl
  divide _ _ h := if_neg h

end PagedQuery
