import Mathlib.Data.List.Dedup
import Mathlib.Data.Multiset.Basic
import Mathlib.Order.Hom.Basic
import Mathlib.Algebra.Order.Ring.Rat
import PagedQuery.Proofs.Condition.Meaning
import PagedQuery.Dialect.Functions
import PagedQuery.Statement.Select

/-!
# Evaluation of expressions

What a database computes, in three-valued logic. The data of the database are
an ordered type, which tells what is equal and what comes first; null is no
datum. What its functions make of data is left open.

* `Row`, `Scope`, `Env`: what expressions read;
* `keyBefore`: the order of rows by their sort keys;
* `Warehouse`: the content and the functions of a database;
* `Expr.eval`, `Expr.value`: the value of an expression;
* `Warehouse.ofGroup`, `Warehouse.ofPosition`: aggregates over a group, windows over all rows.
-/

namespace PagedQuery

/-! ## Rows -/

/-- Cells with the names of their columns. A cell without a datum is null. -/
abbrev Row (δ : Type) :=
  List (String × Option δ)

/-- The cell of a column, null if there is no such column. -/
def Row.cell {δ : Type} (row : Row δ) (name : String) : Option δ :=
  (row.lookup name).join

/-- The rows that an expression can read, by the qualifiers of their relations. -/
abbrev Scope (δ : Type) :=
  Option String → Row δ

/-- The scope of a single relation. -/
def Scope.single {δ : Type} (qualifier : Option String) (row : Row δ) : Scope δ :=
  Function.update (fun _ => []) qualifier row

@[simp] theorem Scope.single_self {δ : Type} (qualifier : Option String) (row : Row δ) :
    Scope.single qualifier row qualifier = row := by
  simp [Scope.single]

/-- What an expression is evaluated with: the rows it can read, and the values of aggregates and
windows. -/
structure Env (δ : Type) where
  scope : Scope δ
  aggregate : Aggregation → Option Expr → Option δ
  window : WindowFunction → List Expr → List (Expr × Direction) → Option δ

/-- The environment of an expression over a single row, where there is no aggregate and no
window. -/
def Env.ofRow {δ : Type} (scope : Scope δ) : Env δ :=
  { scope, aggregate := fun _ _ => none, window := fun _ _ _ => none }

@[simp] theorem Env.ofRow_scope {δ : Type} (scope : Scope δ) : (Env.ofRow scope).scope = scope :=
  rfl

/-! ## Order of rows -/

variable {δ : Type} [LinearOrder δ]

/-- Whether one cell comes before another one. -/
def cellBefore (nullsFirst : Direction → Bool) (direction : Direction) :
    Option δ → Option δ → Bool
  | some a, some b =>
    match direction with
    | .ascending => decide (a < b)
    | .descending => decide (b < a)
  | none, some _ => nullsFirst direction
  | some _, none => !nullsFirst direction
  | none, none => false

/-- Whether one sort key comes before another one, by the first cell that differs. -/
def keyBefore (nullsFirst : Direction → Bool) :
    List Direction → List (Option δ) → List (Option δ) → Bool
  | [], _, _ => false
  | direction :: directions, as, bs =>
    cellBefore nullsFirst direction as.head?.join bs.head?.join ||
      as.head?.join = bs.head?.join && keyBefore nullsFirst directions as.tail bs.tail

/-! ## Databases -/

/-- The content of a database, and what it does with data. -/
structure Warehouse (δ : Type) [LinearOrder δ] where
  /-- The rows of a table, by its schema and name. -/
  table : String → String → List (Row δ)
  /-- The rows of a query of the caller. -/
  custom : String → List (Row δ)
  truth : Bool ↪ δ
  number : ℚ ↪o δ
  float : Binary64 → δ
  text : String → δ
  /-- The value that is bound to a placeholder. -/
  value : Value → Option δ
  /-- The comparisons that are neither of equality nor of order. -/
  isMatch : Comparison → δ → δ → Bool
  arithmetic : ArithmeticOp → δ → δ → Option δ
  call : String → List (Option δ) → Option δ
  cast : String → Option δ → Option δ
  /-- The value of a piece of a statement. -/
  raw : String → Env δ → Option δ
  /-- The datum that stands for null among timestamps. -/
  timestampSentinel : Dialect → δ
  raw_timestampSentinel : ∀ (dialect : Dialect) (sql : String),
    dialect.timestampSentinel = .raw sql → ∀ env, raw sql env = some (timestampSentinel dialect)
  sum : Multiset δ → Option δ
  average : Multiset δ → Option δ
  /-- Whether null comes before all data. -/
  nullsFirst : Direction → Bool
  /-- The members of a partition in the order in which they are numbered, by what they are sorted
  by and by their sort keys. -/
  arrange : List (Expr × Direction) → (members : List Nat) → (Nat → List (Option δ)) → List Nat
  arrange_perm : ∀ orderBy members sortKey, (arrange orderBy members sortKey).Perm members
  /-- Members with the same sort key may come in any order. -/
  arrange_pairwise : ∀ orderBy members sortKey,
    (arrange orderBy members sortKey).Pairwise fun i j =>
      keyBefore nullsFirst (orderBy.map Prod.snd) (sortKey j) (sortKey i) = false

namespace Warehouse

variable (db : Warehouse δ)

/-! ### Truth values and comparisons -/

def ofTruth : Truth → Option δ
  | .holds => some (db.truth true)
  | .fails => some (db.truth false)
  | .unknown => none

/-- Whether a datum is the true one; null is unknown. -/
def toTruth : Option δ → Truth
  | none => .unknown
  | some datum => .ofBool (decide (datum = db.truth true))

@[simp] theorem toTruth_ofTruth (t : Truth) : db.toTruth (db.ofTruth t) = t := by
  cases t <;> simp [ofTruth, toTruth, Truth.ofBool]

/-- Whether two data compare. -/
def relates (op : Comparison) (a b : δ) : Bool :=
  match op with
  | .eq => decide (a = b)
  | .notEq => decide (a ≠ b)
  | .lt => decide (a < b)
  | .le => decide (a ≤ b)
  | .gt => decide (b < a)
  | .ge => decide (b ≤ a)
  | .like => db.isMatch .like a b
  | .textMatch => db.isMatch .textMatch a b

/-- A comparison with null is unknown. -/
def compare (op : Comparison) : Option δ → Option δ → Truth
  | some a, some b => .ofBool (db.relates op a b)
  | _, _ => .unknown

def literal : Literal → Option δ
  | .null => none
  | .bool b => some (db.truth b)
  | .int i => some (db.number i)
  | .float x => some (db.float x)
  | .string s => some (db.text s)

end Warehouse

/-! ## Expressions -/

section Eval

variable (db : Warehouse δ) (env : Env δ)

mutual

/-- The value of an expression. -/
def Expr.eval : Expr → Option δ
  | .column ref => Row.cell (env.scope ref.qualifier) ref.name
  | .literal l => db.literal l
  | .param v => db.value v
  | .compare left op right => db.ofTruth (db.compare op left.eval right.eval)
  | .inList expr values =>
    db.ofTruth (.any ((Expr.evalList values).map (db.compare .eq expr.eval)))
  | .all parts => db.ofTruth (.all ((Expr.evalList parts).map db.toTruth))
  | .any parts => db.ofTruth (.any ((Expr.evalList parts).map db.toTruth))
  | .not expr => db.ofTruth (db.toTruth expr.eval).not
  | .raw sql => db.raw sql env
  | .arithmetic op left right =>
    left.eval.bind fun a => right.eval.bind fun b => db.arithmetic op a b
  | .isNull expr => db.ofTruth (.ofBool expr.eval.isNone)
  | .isNotNull expr => db.ofTruth (.ofBool expr.eval.isSome)
  | .case branches otherwise => Expr.evalBranches (Expr.evalOption otherwise) branches
  | .coalesce exprs => (Expr.evalList exprs).findSome? id
  | .call function args => db.call function (Expr.evalList args)
  | .cast expr typeName => db.cast typeName expr.eval
  | .aggregate func arg => env.aggregate func arg
  | .window func partitionBy orderBy => env.window func partitionBy orderBy
  | .wildcard _ => none
termination_by structural e => e

def Expr.evalList : List Expr → List (Option δ)
  | [] => []
  | expr :: rest => expr.eval :: Expr.evalList rest
termination_by structural es => es

/-- The value of the first branch whose condition holds. -/
def Expr.evalBranches (otherwise : Option δ) : List (Expr × Expr) → Option δ
  | [] => otherwise
  | (condition, value) :: rest =>
    if db.toTruth condition.eval = .holds then value.eval
    else Expr.evalBranches otherwise rest
termination_by structural branches => branches

def Expr.evalOption : Option Expr → Option δ
  | none => none
  | some expr => expr.eval
termination_by structural e => e

end

theorem Expr.evalList_eq_map (es : List Expr) :
    Expr.evalList db env es = es.map (Expr.eval db env) := by
  induction es with
  | nil => rfl
  | cons e rest ih => rw [evalList, ih, List.map_cons]

end Eval

/-- The value of an expression over a single row. -/
def Expr.value (db : Warehouse δ) (scope : Scope δ) (e : Expr) : Option δ :=
  e.eval db (.ofRow scope)

@[simp] theorem Expr.value_column (db : Warehouse δ) (scope : Scope δ) (ref : ColumnRef) :
    (Expr.column ref).value db scope = Row.cell (scope ref.qualifier) ref.name := by
  rw [value, eval, Env.ofRow_scope]

/-! ## Aggregates and windows -/

namespace Warehouse

variable (db : Warehouse δ)

/-- Whether a condition holds for a row; an unknown condition does not. -/
def holds (condition : Expr) (scope : Scope δ) : Bool :=
  decide (db.toTruth (condition.value db scope) = .holds)

/-- What an aggregate makes of the data among its arguments. -/
def summarize (func : Aggregation) (data : List δ) : Option δ :=
  match func with
  | .sum => db.sum data
  | .avg => db.average data
  | .count => some (db.number data.length)
  | .countDistinct => some (db.number data.dedup.length)
  | .min => data.min?
  | .max => data.max?

/-- The environment of an expression over a group. What it reads outside of aggregates is read
in the first row. -/
def ofGroup (rows : List (Scope δ)) : Env δ where
  scope := rows.headD fun _ => []
  aggregate
    | func, some arg => db.summarize func (rows.filterMap fun scope => arg.value db scope)
    | .count, none => some (db.number rows.length)
    | _, none => none
  window _ _ _ := none

/-- The environment of an expression over one row of a statement that does not put rows
together. A window ranges over the rows with the same partition key. -/
def ofPosition (rows : List (Scope δ)) (scope : Scope δ) (i : Nat) : Env δ where
  scope := scope
  aggregate _ _ := none
  window func partitionBy orderBy :=
    let partitionKey (j : Nat) := rows[j]?.map fun scope => partitionBy.map (Expr.value db scope)
    let sortKey (j : Nat) :=
      (rows[j]?.map fun scope => orderBy.map fun key => key.1.value db scope).getD []
    let members := (List.range rows.length).filter fun j => partitionKey j = partitionKey i
    match func with
    | .rowNumber => some (db.number ((db.arrange orderBy members sortKey).idxOf i + 1 : Nat))
    | .countAll =>
      let reached := members.filter fun j =>
        !keyBefore db.nullsFirst (orderBy.map Prod.snd) (sortKey i) (sortKey j)
      some (db.number reached.length)

end Warehouse

end PagedQuery
