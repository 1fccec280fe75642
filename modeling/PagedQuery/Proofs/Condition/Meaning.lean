import PagedQuery.Proofs.Condition.Reader
import PagedQuery.Proofs.Query.Literals

/-!
# Meaning of conditions and filters

Conditions and filters hold, fail or are unknown in a row, as nulls decide. What
a database makes of two values that are not null, and of the arguments of a
function, is left open.

* `Truth`: the three truth values and their connectives;
* `Database`: the comparisons and functions of a database;
* `Condition.eval`: what a condition is in a row;
* `Leaf.meaning`, `Filter.meaning`: what filters mean.
-/

namespace PagedQuery

/-! ## Three truth values -/

inductive Truth where
  | holds
  | fails
  | unknown
deriving DecidableEq

namespace Truth

def ofBool : Bool → Truth
  | true => .holds
  | false => .fails

def not : Truth → Truth
  | .holds => .fails
  | .fails => .holds
  | .unknown => .unknown

/-- Both hold, or one fails; anything else is unknown. -/
def and : Truth → Truth → Truth
  | .fails, _ => .fails
  | _, .fails => .fails
  | .holds, .holds => .holds
  | _, _ => .unknown

/-- One holds, or both fail; anything else is unknown. -/
def or : Truth → Truth → Truth
  | .holds, _ => .holds
  | _, .holds => .holds
  | .fails, .fails => .fails
  | _, _ => .unknown

/-- The conjunction of a list, which holds if there is nothing in it. -/
def all (truths : List Truth) : Truth :=
  truths.foldr and .holds

/-- The disjunction of a list, which fails if there is nothing in it. -/
def any (truths : List Truth) : Truth :=
  truths.foldr or .fails

@[simp] theorem all_nil : all [] = .holds := rfl

@[simp] theorem any_nil : any [] = .fails := rfl

@[simp] theorem all_cons (t : Truth) (rest : List Truth) : all (t :: rest) = t.and (all rest) :=
  rfl

@[simp] theorem any_cons (t : Truth) (rest : List Truth) : any (t :: rest) = t.or (any rest) :=
  rfl

@[simp] theorem and_holds (t : Truth) : t.and .holds = t := by
  cases t <;> rfl

@[simp] theorem or_fails (t : Truth) : t.or .fails = t := by
  cases t <;> rfl

theorem and_eq_holds_iff {a b : Truth} : a.and b = .holds ↔ a = .holds ∧ b = .holds := by
  cases a <;> cases b <;> simp [and]

theorem all_eq_holds_iff {truths : List Truth} : all truths = .holds ↔ ∀ t ∈ truths, t = .holds := by
  induction truths with
  | nil => simp
  | cons t rest ih => simp [and_eq_holds_iff, ih]

theorem ofBool_eq_holds_iff {b : Bool} : ofBool b = .holds ↔ b = true := by
  cases b <;> simp [ofBool]

theorem and_assoc (a b c : Truth) : (a.and b).and c = a.and (b.and c) := by
  cases a <;> cases b <;> cases c <;> rfl

theorem or_assoc (a b c : Truth) : (a.or b).or c = a.or (b.or c) := by
  cases a <;> cases b <;> cases c <;> rfl

/-- It makes no difference from which side a conjunction is put together. -/
theorem foldl_and (t : Truth) (truths : List Truth) : truths.foldl and t = t.and (all truths) := by
  induction truths generalizing t with
  | nil => simp
  | cons first rest ih => rw [List.foldl_cons, ih, and_assoc, all_cons]

theorem foldl_or (t : Truth) (truths : List Truth) : truths.foldl or t = t.or (any truths) := by
  induction truths generalizing t with
  | nil => simp
  | cons first rest ih => rw [List.foldl_cons, ih, or_assoc, any_cons]

end Truth

/-! ## Databases -/

/-- What a database does with values. -/
structure Database where
  /-- Whether a comparison holds between two values, neither of which is null. -/
  holds : Comparison → Value → Value → Bool
  /-- The value of a function. -/
  call : String → List Value → Value
  /-- Whole numbers are equal only to themselves. -/
  eq_int : ∀ i j : Int, holds .eq (.int i) (.int j) = decide (i = j)

namespace Database

variable (db : Database)

/-- Comparisons with null are unknown. -/
def compare (op : Comparison) (left right : Value) : Truth :=
  if left = .null ∨ right = .null then .unknown else .ofBool (db.holds op left right)

theorem compare_eq_int (i j : Int) :
    db.compare .eq (.int i) (.int j) = .ofBool (decide (i = j)) := by
  simp [compare, db.eq_int]

/-- A text in lower case. -/
def lower (value : Value) : Value :=
  db.call "LOWER" [value]

/-- Whether a text matches a search string, as each dialect has it. -/
def textSearch (dialect : Dialect) (value query : Value) : Truth :=
  match dialect with
  | .postgres =>
    db.compare .textMatch (db.call "TO_TSVECTOR" [value]) (db.call "PLAINTO_TSQUERY" [query])
  | .mysql => db.compare .gt (db.call "INSTR" [db.lower value, db.lower query]) (.int 0)
  | .clickhouse => db.compare .gt (db.call "positionCaseInsensitive" [value, query]) (.int 0)

end Database

/-! ## Conditions -/

section Conditions

variable (db : Database) (row : ColumnRef → Value)

mutual

/-- The value of an operand in a row. -/
def Operand.eval : Operand → Value
  | .column ref => row ref
  | .value v => v
  | .call function args => db.call function (Operand.evalList args)
termination_by structural operand => operand

def Operand.evalList : List Operand → List Value
  | [] => []
  | operand :: rest => operand.eval :: Operand.evalList rest
termination_by structural operands => operands

end

/-- What a condition is in a row. A choice holds if one of the equations holds. -/
def Condition.eval : Condition → Truth
  | .compare left op right => db.compare op (left.eval db row) (right.eval db row)
  | .isIn operand values =>
    .any (values.map fun value => db.compare .eq (operand.eval db row) (value.eval db row))
  | .isNull operand => .ofBool (decide (operand.eval db row = .null))
  | .not condition => condition.eval.not
  | .and left right => left.eval.and right.eval
  | .or left right => left.eval.or right.eval

theorem Condition.eval_foldl_and (condition : Condition) (conditions : List Condition) :
    (conditions.foldl .and condition).eval db row =
      .all ((condition :: conditions).map (Condition.eval db row)) := by
  have hfoldl : (conditions.foldl .and condition).eval db row =
      (conditions.map (Condition.eval db row)).foldl Truth.and (condition.eval db row) := by
    induction conditions generalizing condition with
    | nil => rfl
    | cons first rest ih => exact ih (.and condition first)
  rw [hfoldl, Truth.foldl_and, List.map_cons, Truth.all_cons]

theorem Condition.eval_foldl_or (condition : Condition) (conditions : List Condition) :
    (conditions.foldl .or condition).eval db row =
      .any ((condition :: conditions).map (Condition.eval db row)) := by
  have hfoldl : (conditions.foldl .or condition).eval db row =
      (conditions.map (Condition.eval db row)).foldl Truth.or (condition.eval db row) := by
    induction conditions generalizing condition with
    | nil => rfl
    | cons first rest ih => exact ih (.or condition first)
  rw [hfoldl, Truth.foldl_or, List.map_cons, Truth.any_cons]

end Conditions

/-! ## Filters -/

section Filters

variable (db : Database) (dialect : Dialect) (catalog : Catalog) (column : String → Value)

/-- What a leaf means in a row, by the value of its field and its literals. Choices are between
equations; comparisons of strings are of their lower case, with a pattern, or by text search. -/
def Leaf.meaning (leaf : Leaf) : Truth :=
  let value := column leaf.field
  match leaf.op, leaf.literals? catalog with
  | .isNull, _ => .ofBool (decide (value = .null))
  | .isIn, some literals => .any (literals.map (db.compare .eq value))
  | .eq, some [literal] => db.compare .eq value literal
  | .ge, some [literal] => db.compare .ge value literal
  | .gt, some [literal] => db.compare .gt value literal
  | .le, some [literal] => db.compare .le value literal
  | .lt, some [literal] => db.compare .lt value literal
  | .eqi, some [text] => db.compare .eq (db.lower value) (db.lower text)
  | .contains, some [pattern] => db.compare .like value pattern
  | .textSearch, some [query] => db.textSearch dialect value query
  | _, _ => .unknown

mutual

/-- What a filter means in a row. -/
def Filter.meaning : Filter → Truth
  | .all filters => .all (Filter.meanings filters)
  | .any filters => .any (Filter.meanings filters)
  | .not filter => filter.meaning.not
  | .leaf l => l.meaning db dialect catalog column
termination_by structural f => f

def Filter.meanings : List Filter → List Truth
  | [] => []
  | filter :: rest => filter.meaning :: Filter.meanings rest
termination_by structural fs => fs

end

end Filters

end PagedQuery
