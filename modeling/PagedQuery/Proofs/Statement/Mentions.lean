import PagedQuery.Statement.Select

/-!
# Columns of expressions

An expression mentions columns, within aggregates and outside of them. All
columns of a relation count as a column named by the star.

* `Expr.mentions`: the columns and aggregates in an expression;
* `Expr.columns`, `Expr.looseColumns`: its columns, and those outside of aggregates;
* `Expr.hasAggregate`: whether there is an aggregate in it;
* `Expr.MentionsOnly`, `Expr.ReadsOnly`: all that an expression mentions, and all its columns.
-/

namespace PagedQuery

/-- Something that an expression mentions. -/
inductive Mention where
  /-- A column, within an aggregate or not. -/
  | column (ref : ColumnRef) (aggregated : Bool)
  | aggregate
deriving DecidableEq

mutual

/-- What an expression mentions, from left to right, if it stands in an aggregate or not. -/
def Expr.mentions : Expr → (aggregated : Bool) → List Mention
  | .column ref, aggregated => [.column ref aggregated]
  | .literal _, _ => []
  | .param _, _ => []
  | .compare left _ right, aggregated => left.mentions aggregated ++ right.mentions aggregated
  | .inList expr values, aggregated =>
    expr.mentions aggregated ++ Expr.mentionsList values aggregated
  | .all parts, aggregated => Expr.mentionsList parts aggregated
  | .any parts, aggregated => Expr.mentionsList parts aggregated
  | .not expr, aggregated => expr.mentions aggregated
  | .raw _, _ => []
  | .arithmetic _ left right, aggregated => left.mentions aggregated ++ right.mentions aggregated
  | .isNull expr, aggregated => expr.mentions aggregated
  | .isNotNull expr, aggregated => expr.mentions aggregated
  | .case branches otherwise, aggregated =>
    Expr.mentionsBranches branches aggregated ++ Expr.mentionsOption otherwise aggregated
  | .coalesce exprs, aggregated => Expr.mentionsList exprs aggregated
  | .call _ args, aggregated => Expr.mentionsList args aggregated
  | .cast expr _, aggregated => expr.mentions aggregated
  | .aggregate _ arg, _ => .aggregate :: Expr.mentionsOption arg true
  | .window _ partitionBy orderBy, aggregated =>
    Expr.mentionsList partitionBy aggregated ++ Expr.mentionsKeys orderBy aggregated
  | .wildcard qualifier, aggregated => [.column ⟨qualifier, "*"⟩ aggregated]
termination_by structural e => e

def Expr.mentionsList : List Expr → (aggregated : Bool) → List Mention
  | [], _ => []
  | expr :: rest, aggregated => expr.mentions aggregated ++ Expr.mentionsList rest aggregated
termination_by structural es => es

def Expr.mentionsBranches : List (Expr × Expr) → (aggregated : Bool) → List Mention
  | [], _ => []
  | (condition, value) :: rest, aggregated =>
    condition.mentions aggregated ++ value.mentions aggregated ++
      Expr.mentionsBranches rest aggregated
termination_by structural branches => branches

def Expr.mentionsOption : Option Expr → (aggregated : Bool) → List Mention
  | none, _ => []
  | some expr, aggregated => expr.mentions aggregated
termination_by structural e => e

def Expr.mentionsKeys : List (Expr × Direction) → (aggregated : Bool) → List Mention
  | [], _ => []
  | (expr, _) :: rest, aggregated => expr.mentions aggregated ++ Expr.mentionsKeys rest aggregated
termination_by structural keys => keys

end

def Mention.column? : Mention → Option ColumnRef
  | .column ref _ => some ref
  | .aggregate => none

def Mention.looseColumn? : Mention → Option ColumnRef
  | .column ref false => some ref
  | _ => none

namespace Expr

/-- The columns of an expression. -/
def columns (e : Expr) : List ColumnRef :=
  (e.mentions false).filterMap Mention.column?

/-- The columns of an expression that are in no aggregate. -/
def looseColumns (e : Expr) : List ColumnRef :=
  (e.mentions false).filterMap Mention.looseColumn?

/-- Whether there is an aggregate in an expression. -/
def hasAggregate (e : Expr) : Bool :=
  (e.mentions false).contains .aggregate

/-- An expression mentions only what satisfies a condition. -/
def MentionsOnly (P : Mention → Prop) (aggregated : Bool) (e : Expr) : Prop :=
  ∀ mention ∈ e.mentions aggregated, P mention

/-- All columns are of one relation. -/
def ReadsOnly (qualifier : Option String) (e : Expr) : Prop :=
  ∀ ref ∈ e.columns, ref.qualifier = qualifier

theorem mem_mentionsList {es : List Expr} {aggregated : Bool} {mention : Mention} :
    mention ∈ mentionsList es aggregated ↔ ∃ e ∈ es, mention ∈ e.mentions aggregated := by
  induction es with
  | nil => simp [mentionsList]
  | cons e rest ih => simp [mentionsList, ih]

theorem mem_mentionsBranches {branches : List (Expr × Expr)} {aggregated : Bool}
    {mention : Mention} :
    mention ∈ mentionsBranches branches aggregated ↔
      ∃ branch ∈ branches,
        mention ∈ branch.1.mentions aggregated ∨ mention ∈ branch.2.mentions aggregated := by
  induction branches with
  | nil => simp [mentionsBranches]
  | cons branch rest ih => simp [mentionsBranches, ih, or_assoc]

theorem mem_mentionsOption {e : Option Expr} {aggregated : Bool} {mention : Mention} :
    mention ∈ mentionsOption e aggregated ↔ ∃ expr ∈ e, mention ∈ expr.mentions aggregated := by
  cases e <;> simp [mentionsOption]

theorem mem_mentionsKeys {keys : List (Expr × Direction)} {aggregated : Bool}
    {mention : Mention} :
    mention ∈ mentionsKeys keys aggregated ↔ ∃ key ∈ keys, mention ∈ key.1.mentions aggregated := by
  induction keys with
  | nil => simp [mentionsKeys]
  | cons key rest ih => simp [mentionsKeys, ih]

theorem mem_columns {e : Expr} {ref : ColumnRef} :
    ref ∈ e.columns ↔ ∃ aggregated, .column ref aggregated ∈ e.mentions false := by
  unfold columns
  rw [List.mem_filterMap]
  constructor
  · rintro ⟨mention, hmention, href⟩
    cases mention with
    | column other aggregated =>
      cases href
      exact ⟨aggregated, hmention⟩
    | «aggregate» => cases href
  · rintro ⟨aggregated, hmention⟩
    exact ⟨_, hmention, rfl⟩

theorem mem_columns_all {es : List Expr} {ref : ColumnRef} :
    ref ∈ (Expr.all es).columns ↔ ∃ e ∈ es, ref ∈ e.columns := by
  simp only [mem_columns, mentions, mem_mentionsList]
  constructor
  · rintro ⟨aggregated, e, he, hmention⟩
    exact ⟨e, he, aggregated, hmention⟩
  · rintro ⟨e, he, aggregated, hmention⟩
    exact ⟨aggregated, e, he, hmention⟩

theorem mem_columns_window {func : WindowFunction} {partitionBy : List Expr}
    {orderBy : List (Expr × Direction)} {ref : ColumnRef} :
    ref ∈ (Expr.window func partitionBy orderBy).columns ↔
      (∃ e ∈ partitionBy, ref ∈ e.columns) ∨ ∃ key ∈ orderBy, ref ∈ key.1.columns := by
  simp only [mem_columns, mentions, List.mem_append, mem_mentionsList, mem_mentionsKeys]
  constructor
  · rintro ⟨aggregated, ⟨e, he, hmention⟩ | ⟨key, hkey, hmention⟩⟩
    · exact .inl ⟨e, he, aggregated, hmention⟩
    · exact .inr ⟨key, hkey, aggregated, hmention⟩
  · rintro (⟨e, he, aggregated, hmention⟩ | ⟨key, hkey, aggregated, hmention⟩)
    · exact ⟨aggregated, .inl ⟨e, he, hmention⟩⟩
    · exact ⟨aggregated, .inr ⟨key, hkey, hmention⟩⟩

end Expr

end PagedQuery
