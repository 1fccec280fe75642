import PagedQuery.Proofs.Query.Scopes

/-!
# Faults

A statement cannot be written if a statement in it selects nothing, or if an
expression in it, however deep, is a choice among no values or an aggregate of
nothing. None of this happens in the plan of a query whose clauses fit together,
so whatever can be planned can be written.

* `Expr.subexprs`, `Select.exprs`: expressions in expressions and in the clauses of statements;
* `Expr.IsComplete`, `Select.IsComplete`: nothing is missing in an expression or a statement;
* `Select.fault?_eq_none_iff`: the statements that can be written are those that are complete;
* `compileRequest_writes`: no query fails while it is written.
-/

namespace PagedQuery

/-! ## Expressions -/

mutual

/-- An expression and all expressions in it. -/
def Expr.subexprs : Expr → List Expr
  | .column ref => [.column ref]
  | .literal value => [.literal value]
  | .param value => [.param value]
  | .compare left op right => .compare left op right :: (left.subexprs ++ right.subexprs)
  | .inList expr values => .inList expr values :: (expr.subexprs ++ Expr.subexprsList values)
  | .all parts => .all parts :: Expr.subexprsList parts
  | .any parts => .any parts :: Expr.subexprsList parts
  | .not expr => .not expr :: expr.subexprs
  | .raw sql => [.raw sql]
  | .arithmetic op left right => .arithmetic op left right :: (left.subexprs ++ right.subexprs)
  | .isNull expr => .isNull expr :: expr.subexprs
  | .isNotNull expr => .isNotNull expr :: expr.subexprs
  | .case branches otherwise =>
    .case branches otherwise ::
      (Expr.subexprsBranches branches ++ Expr.subexprsOption otherwise)
  | .coalesce exprs => .coalesce exprs :: Expr.subexprsList exprs
  | .call function args => .call function args :: Expr.subexprsList args
  | .cast expr typeName => .cast expr typeName :: expr.subexprs
  | .aggregate func arg => .aggregate func arg :: Expr.subexprsOption arg
  | .window func partitionBy orderBy =>
    .window func partitionBy orderBy ::
      (Expr.subexprsList partitionBy ++ Expr.subexprsKeys orderBy)
  | .wildcard qualifier => [.wildcard qualifier]
termination_by structural e => e

def Expr.subexprsList : List Expr → List Expr
  | [] => []
  | expr :: rest => expr.subexprs ++ Expr.subexprsList rest
termination_by structural es => es

def Expr.subexprsBranches : List (Expr × Expr) → List Expr
  | [] => []
  | (condition, value) :: rest =>
    condition.subexprs ++ value.subexprs ++ Expr.subexprsBranches rest
termination_by structural branches => branches

def Expr.subexprsOption : Option Expr → List Expr
  | none => []
  | some expr => expr.subexprs
termination_by structural e => e

def Expr.subexprsKeys : List (Expr × Direction) → List Expr
  | [] => []
  | (expr, _) :: rest => expr.subexprs ++ Expr.subexprsKeys rest
termination_by structural keys => keys

end

namespace Expr

theorem mem_subexprsList {es : List Expr} {sub : Expr} :
    sub ∈ subexprsList es ↔ ∃ e ∈ es, sub ∈ e.subexprs := by
  induction es with
  | nil => simp [subexprsList]
  | cons e rest ih => simp [subexprsList, ih]

/-- A choice is among some values, and an aggregate that does not count rows has an argument. -/
def IsComplete : Expr → Prop
  | .inList _ values => values ≠ []
  | .aggregate func none => func = .count
  | _ => True

def AllComplete (es : List Expr) : Prop :=
  ∀ e ∈ es, e.IsComplete

@[simp] theorem allComplete_nil : AllComplete [] := fun _ he => absurd he List.not_mem_nil

@[simp] theorem allComplete_cons {e : Expr} {es : List Expr} :
    AllComplete (e :: es) ↔ e.IsComplete ∧ AllComplete es := List.forall_mem_cons

@[simp] theorem allComplete_append {es fs : List Expr} :
    AllComplete (es ++ fs) ↔ AllComplete es ∧ AllComplete fs := List.forall_mem_append

mutual

/-- An expression can be written if it and all expressions in it are complete. -/
theorem fault?_eq_none_iff (e : Expr) : e.fault? = none ↔ AllComplete e.subexprs := by
  cases e with
  | column ref => simp [fault?, subexprs, IsComplete]
  | literal value => simp [fault?, subexprs, IsComplete]
  | param value => simp [fault?, subexprs, IsComplete]
  | compare left op right =>
    simp [fault?, subexprs, IsComplete, fault?_eq_none_iff left, fault?_eq_none_iff right]
  | inList expr values =>
    cases values with
    | nil => simp [fault?, subexprs, IsComplete]
    | cons value rest =>
      simp [fault?, subexprs, IsComplete, fault?_eq_none_iff expr,
        faultList?_eq_none_iff (value :: rest)]
  | all parts => simp [fault?, subexprs, IsComplete, faultList?_eq_none_iff parts]
  | any parts => simp [fault?, subexprs, IsComplete, faultList?_eq_none_iff parts]
  | not expr => simp [fault?, subexprs, IsComplete, fault?_eq_none_iff expr]
  | raw sql => simp [fault?, subexprs, IsComplete]
  | arithmetic op left right =>
    simp [fault?, subexprs, IsComplete, fault?_eq_none_iff left, fault?_eq_none_iff right]
  | isNull expr => simp [fault?, subexprs, IsComplete, fault?_eq_none_iff expr]
  | isNotNull expr => simp [fault?, subexprs, IsComplete, fault?_eq_none_iff expr]
  | case branches otherwise =>
    simp [fault?, subexprs, IsComplete, faultBranches?_eq_none_iff branches,
      faultOption?_eq_none_iff otherwise]
  | coalesce exprs => simp [fault?, subexprs, IsComplete, faultList?_eq_none_iff exprs]
  | call function args => simp [fault?, subexprs, IsComplete, faultList?_eq_none_iff args]
  | cast expr typeName => simp [fault?, subexprs, IsComplete, fault?_eq_none_iff expr]
  | «aggregate» func arg =>
    have harg := faultOption?_eq_none_iff arg
    cases arg with
    | none => cases func <;> simp [fault?, faultOption?, subexprs, subexprsOption, IsComplete]
    | some arg =>
      rw [faultOption?] at harg
      cases func <;> simp [fault?, faultOption?, subexprs, IsComplete, harg]
  | window func partitionBy orderBy =>
    simp [fault?, subexprs, IsComplete, faultList?_eq_none_iff partitionBy,
      faultKeys?_eq_none_iff orderBy]
  | wildcard qualifier => simp [fault?, subexprs, IsComplete]
termination_by structural e

theorem faultList?_eq_none_iff (es : List Expr) :
    faultList? es = none ↔ AllComplete (subexprsList es) := by
  cases es with
  | nil => simp [faultList?, subexprsList]
  | cons e rest =>
    simp [faultList?, subexprsList, fault?_eq_none_iff e, faultList?_eq_none_iff rest]
termination_by structural es

theorem faultBranches?_eq_none_iff (branches : List (Expr × Expr)) :
    faultBranches? branches = none ↔ AllComplete (subexprsBranches branches) := by
  match branches with
  | [] => simp [faultBranches?, subexprsBranches]
  | (condition, value) :: rest =>
    simp [faultBranches?, subexprsBranches, fault?_eq_none_iff condition,
      fault?_eq_none_iff value, faultBranches?_eq_none_iff rest]
termination_by structural branches

theorem faultOption?_eq_none_iff (e : Option Expr) :
    faultOption? e = none ↔ AllComplete (subexprsOption e) := by
  match e with
  | none => simp [faultOption?, subexprsOption]
  | some e => exact fault?_eq_none_iff e
termination_by structural e

theorem faultKeys?_eq_none_iff (keys : List (Expr × Direction)) :
    faultKeys? keys = none ↔ AllComplete (subexprsKeys keys) := by
  match keys with
  | [] => simp [faultKeys?, subexprsKeys]
  | (e, direction) :: rest =>
    simp [faultKeys?, subexprsKeys, fault?_eq_none_iff e, faultKeys?_eq_none_iff rest]
termination_by structural keys

end

end Expr

/-! ## Statements -/

namespace Select

/-- The expressions in the clauses of a statement. Those of the statements it reads are not
among them. -/
def exprs (s : Select) : List Expr :=
  s.items.map SelectItem.expr ++ s.joins.map Join.condition ++ s.filter.toList ++ s.groupBy ++
    s.orderBy.map Prod.fst

/-- A statement selects something, and nothing is missing in its clauses. -/
structure IsComplete (s : Select) : Prop where
  items_ne_nil : s.items ≠ []
  exprs : ∀ e ∈ s.exprs, Expr.AllComplete e.subexprs

end Select

namespace Expr

theorem faultList?_eq_none_iff_forall {es : List Expr} :
    faultList? es = none ↔ ∀ e ∈ es, AllComplete e.subexprs := by
  induction es with
  | nil => simp [faultList?]
  | cons e rest ih => simp [faultList?, ih, fault?_eq_none_iff]

theorem faultOption?_eq_none_iff_forall {e : Option Expr} :
    faultOption? e = none ↔ ∀ expr ∈ e.toList, AllComplete expr.subexprs := by
  cases e with
  | none => simp [faultOption?]
  | some expr => simp [faultOption?, fault?_eq_none_iff]

theorem faultKeys?_eq_none_iff_forall {keys : List (Expr × Direction)} :
    faultKeys? keys = none ↔ ∀ e ∈ keys.map Prod.fst, AllComplete e.subexprs := by
  induction keys with
  | nil => simp [faultKeys?]
  | cons key rest ih =>
    simp only [faultKeys?, Option.orElse_eq_orElse, Option.orElse_eq_or, Option.or_eq_none_iff, ih,
      fault?_eq_none_iff, List.map_cons, List.forall_mem_cons]

end Expr

/-- What the writer looks at in the clauses of a statement. -/
theorem Select.isComplete_iff {s : Select} :
    s.IsComplete ↔
      s.items ≠ [] ∧ Expr.faultList? (s.items.map SelectItem.expr) = none ∧
        (∀ e ∈ s.joins.map Join.condition, Expr.AllComplete e.subexprs) ∧
        Expr.faultOption? s.filter = none ∧ Expr.faultList? s.groupBy = none ∧
        Expr.faultKeys? s.orderBy = none := by
  rw [Expr.faultList?_eq_none_iff_forall, Expr.faultOption?_eq_none_iff_forall,
    Expr.faultList?_eq_none_iff_forall, Expr.faultKeys?_eq_none_iff_forall]
  constructor
  · rintro ⟨hitems, hexprs⟩
    simp only [exprs, List.forall_mem_append] at hexprs
    obtain ⟨⟨⟨⟨hselected, hjoins⟩, hfilter⟩, hgroupBy⟩, horderBy⟩ := hexprs
    exact ⟨hitems, hselected, hjoins, hfilter, hgroupBy, horderBy⟩
  · rintro ⟨hitems, hselected, hjoins, hfilter, hgroupBy, horderBy⟩
    refine ⟨hitems, ?_⟩
    simp only [exprs, List.forall_mem_append]
    exact ⟨⟨⟨⟨hselected, hjoins⟩, hfilter⟩, hgroupBy⟩, horderBy⟩

mutual

/-- A statement can be written if it and all statements in it are complete. -/
theorem Select.fault?_eq_none_iff (s : Select) :
    s.fault? = none ↔ ∀ t ∈ s.nested, t.IsComplete := by
  match s with
  | ⟨distinct, items, source, joins, filter, groupBy, orderBy, limit, offset⟩ =>
    simp only [Select.fault?, Select.nested, List.forall_mem_cons, List.forall_mem_append]
    rw [Select.isComplete_iff]
    split
    · rename_i hitems
      simp [List.isEmpty_iff.mp hitems]
    · rename_i hitems
      rw [List.isEmpty_iff] at hitems
      simp only [Option.orElse_eq_orElse, Option.orElse_eq_or, Option.or_eq_none_iff,
        Relation.fault?_eq_none_iff source, Select.joinFault?_eq_none_iff joins]
      tauto
termination_by structural s

theorem Relation.fault?_eq_none_iff (relation : Relation) :
    relation.fault? = none ↔ ∀ t ∈ relation.nested, t.IsComplete := by
  match relation with
  | .table schema name aliasName => simp [Relation.fault?, Relation.nested]
  | .custom sql aliasName => simp [Relation.fault?, Relation.nested]
  | .derived select aliasName => exact Select.fault?_eq_none_iff select
termination_by structural relation

theorem Select.joinFault?_eq_none_iff (joins : List Join) :
    Select.joinFault? joins = none ↔
      (∀ t ∈ Select.nestedInJoins joins, t.IsComplete) ∧
        ∀ e ∈ joins.map Join.condition, Expr.AllComplete e.subexprs := by
  match joins with
  | [] => simp [Select.joinFault?, Select.nestedInJoins]
  | ⟨kind, relation, condition⟩ :: rest =>
    simp only [Select.joinFault?, Select.nestedInJoins, Option.orElse_eq_orElse,
      Option.orElse_eq_or, Option.or_eq_none_iff, Relation.fault?_eq_none_iff relation,
      Expr.fault?_eq_none_iff, Select.joinFault?_eq_none_iff rest, List.forall_mem_append,
      List.map_cons, List.forall_mem_cons]
    tauto
termination_by structural joins

end

/-! ## Errors of planning -/

/-- A computation does not fail for something that cannot be written. -/
def NoWriteError {α : Type} (x : Except CompileError α) : Prop :=
  ∀ fault, x ≠ .error (.unwritable fault)

namespace NoWriteError

variable {α β : Type}

/-- Whether a computation has failed for something that cannot be written. -/
def cannotWrite : Except CompileError α → Bool
  | .error (.unwritable _) => true
  | _ => false

theorem of_cannotWrite {x : Except CompileError α} (h : cannotWrite x = false) :
    NoWriteError x := by
  intro fault herror
  rw [herror] at h
  cases h

theorem ok (a : α) : NoWriteError (.ok a) :=
  of_cannotWrite rfl

theorem bind {x : Except CompileError α} {f : α → Except CompileError β} (hx : NoWriteError x)
    (hf : ∀ a, NoWriteError (f a)) : NoWriteError (x >>= f) := by
  intro fault herror
  cases x with
  | error e => exact hx fault (congrArg Except.error (Except.error.inj herror))
  | ok a => exact hf a fault herror

theorem map {x : Except CompileError α} (hx : NoWriteError x) (f : α → β) :
    NoWriteError (x.map f) := by
  intro fault herror
  cases x with
  | error e => exact hx fault (congrArg Except.error (Except.error.inj herror))
  | ok a => cases herror

theorem mapM {f : α → Except CompileError β} (hf : ∀ a, NoWriteError (f a)) (as : List α) :
    NoWriteError (as.mapM f) := by
  induction as with
  | nil => exact ok []
  | cons a rest ih =>
    rw [List.mapM_cons]
    exact (hf a).bind fun b => ih.bind fun bs => ok _

theorem issueAlias (aliases : Aliases) (name : String) :
    NoWriteError (issueAlias aliases name) := by
  unfold PagedQuery.issueAlias
  split
  · exact ok _
  · exact of_cannotWrite rfl

/-! ### Groups and metrics -/

theorem timeSource (catalog : Catalog) (field : String) :
    NoWriteError (timeSource catalog field) := by
  unfold PagedQuery.timeSource
  repeat' split
  all_goals exact of_cannotWrite rfl

theorem ofGroup (catalog : Catalog) (sorted : Bool) (group : Group) (aliases : Aliases) :
    NoWriteError (Dimension.ofGroup catalog sorted group aliases) := by
  unfold Dimension.ofGroup
  split
  · exact of_cannotWrite rfl
  cases group with
  | «attribute» field =>
    dsimp only [Dimension.ofAttribute]
    split
    · exact ((issueAlias aliases field).map _).bind fun _ => ok _
    · exact ok _
  | time field granularity =>
    refine (timeSource catalog field).bind fun source => ?_
    split
    · exact of_cannotWrite rfl
    · exact (issueAlias aliases _).bind fun _ => ok _
  | histogram field start finish bucketSize =>
    simp only [Dimension.ofHistogram]
    split
    · exact of_cannotWrite rfl
    split
    · exact of_cannotWrite rfl
    split
    · exact of_cannotWrite rfl
    · exact (issueAlias aliases _).bind fun _ => ok _

theorem ofGroups (catalog : Catalog) (sorted : List Nat) (index : Nat) (groups : List Group)
    (aliases : Aliases) :
    NoWriteError (Dimension.ofGroups catalog sorted index groups aliases) := by
  induction groups generalizing index aliases with
  | nil => exact ok _
  | cons group rest ih =>
    exact (ofGroup catalog _ group aliases).bind fun _ => (ih _ _).bind fun _ => ok _

theorem shapeOf (catalog : Catalog) (times : List String) (aliases : Aliases) (metric : Metric) :
    NoWriteError (Measure.shapeOf catalog times aliases metric) := by
  have hnumeric (field : String) : NoWriteError (Measure.checkNumeric catalog field) := by
    unfold Measure.checkNumeric
    dsimp only
    split <;> exact of_cannotWrite rfl
  cases metric with
  | sum field => exact (hnumeric field).bind fun _ => ok _
  | avg field => exact (hnumeric field).bind fun _ => ok _
  | count field => cases field <;> exact ok _
  | percentile field margin =>
    rw [Measure.shapeOf]
    split <;> exact of_cannotWrite rfl
  | «calc» expression given =>
    rw [Measure.shapeOf]
    split <;> exact of_cannotWrite rfl
  | _ => exact ok _

theorem ofMetrics (catalog : Catalog) (times : List String) (metrics : List Metric)
    (aliases : Aliases) : NoWriteError (Measure.ofMetrics catalog times metrics aliases) := by
  induction metrics generalizing aliases with
  | nil => exact ok _
  | cons metric rest ih =>
    refine bind ?_ fun _ => (ih _).bind fun _ => ok _
    unfold Measure.ofMetric
    split
    · exact of_cannotWrite rfl
    · exact (shapeOf catalog times aliases metric).bind fun _ =>
        (issueAlias aliases _).bind fun _ => ok _

theorem ofStats (catalog : Catalog) (stats : List Stat) (aliases : Aliases) :
    NoWriteError (Measure.ofStats catalog stats aliases) := by
  induction stats generalizing aliases with
  | nil => exact ok _
  | cons stat rest ih =>
    refine bind ?_ fun _ => (ih _).bind fun _ => ok _
    unfold Measure.ofStat
    split
    · exact of_cannotWrite rfl
    · exact (issueAlias aliases _).bind fun _ => ok _

/-! ### Filters and sorts -/

theorem leafPredicate (ctx : Context) (qualifier : Option String) (leaf : Leaf) :
    NoWriteError (leaf.predicate ctx qualifier) := by
  have hsingle : NoWriteError leaf.single := by
    unfold Leaf.single
    split <;> exact of_cannotWrite rfl
  have hbind (fieldType : FieldType) (text : String) : NoWriteError (leaf.bind fieldType text) := by
    unfold Leaf.bind
    split <;> exact of_cannotWrite rfl
  have htype : NoWriteError (leaf.resolveType ctx.catalog) := by
    unfold Leaf.resolveType
    dsimp only
    repeat' split
    all_goals exact of_cannotWrite rfl
  unfold Leaf.predicate
  dsimp only
  split
  · exact ok _
  split
  · split
    · exact hsingle.bind fun _ => ok _
    · exact of_cannotWrite rfl
  refine htype.bind fun fieldType => ?_
  split
  · split
    · exact of_cannotWrite rfl
    · exact (mapM (hbind fieldType) _).bind fun _ => ok _
  · exact hsingle.bind fun text => (hbind fieldType text).bind fun _ => ok _

mutual

theorem filterPredicate (ctx : Context) (qualifier : Option String) (f : Filter) :
    NoWriteError (f.predicate ctx qualifier) := by
  cases f with
  | all filters => exact (filterPredicates ctx qualifier filters).bind fun _ => ok _
  | any filters => exact (filterPredicates ctx qualifier filters).bind fun _ => ok _
  | not f => exact (filterPredicate ctx qualifier f).bind fun _ => ok _
  | leaf leaf => exact leafPredicate ctx qualifier leaf
termination_by structural f

theorem filterPredicates (ctx : Context) (qualifier : Option String) (fs : List Filter) :
    NoWriteError (Filter.predicates ctx qualifier fs) := by
  cases fs with
  | nil => exact ok _
  | cons f rest =>
    exact (filterPredicate ctx qualifier f).bind fun _ =>
      (filterPredicates ctx qualifier rest).bind fun _ => ok _
termination_by structural fs

end

theorem predicateOf (ctx : Context) (qualifier : Option String) (fs : List Filter) :
    NoWriteError (predicateOf ctx qualifier fs) := by
  rw [predicateOf_eq]
  exact (filterPredicates ctx qualifier fs).bind fun _ => ok _

theorem lastValueJoins (q : Query) (ctx : Context) (dimensions : List Dimension)
    (outer : Option String) (index : Nat) (times : List String) :
    NoWriteError (q.lastValueJoins ctx dimensions outer index times) := by
  induction times generalizing index with
  | nil => exact ok _
  | cons timeField rest ih =>
    exact (predicateOf ctx _ _).bind fun _ => (ih _).bind fun _ => ok _

theorem sortKey (dimensions : List Dimension) (measures : List Measure) (outer : Option String)
    (sort : SortClause) : NoWriteError (Query.sortKey dimensions measures outer sort) := by
  cases sort with
  | raw field direction => exact ok _
  | agg target direction =>
    simp only [Query.sortKey]
    split <;> exact of_cannotWrite rfl

/-! ### Queries -/

theorem check (q : Query) : NoWriteError q.check := by
  have hsource : NoWriteError q.source.check := by
    unfold Source.check
    repeat' split
    all_goals exact of_cannotWrite rfl
  refine hsource.bind fun _ => ?_
  split <;> exact of_cannotWrite rfl

theorem plan (q : Query) (options : CompileOptions) : NoWriteError (q.plan options) := by
  refine (ofGroups _ _ _ _ _).bind fun ⟨dimensions, aliases⟩ => ?_
  refine (ofMetrics _ _ _ _).bind fun ⟨measures, aliases⟩ => ?_
  refine (ofStats _ _ _).bind fun ⟨stats, aliases⟩ => ?_
  refine (predicateOf _ _ _).bind fun filter => ?_
  refine (lastValueJoins _ _ _ _ _ _).bind fun joins => ?_
  exact (mapM (sortKey _ _ _) _).bind fun orderBy => ok _

/-- What is planned can be written. -/
theorem compile (q : Query) (options : CompileOptions) : NoWriteError (q.compile options) := by
  intro fault herror
  cases hcheck : q.check with
  | error e =>
    unfold Query.compile at herror
    rw [hcheck] at herror
    cases herror
    exact check q fault hcheck
  | ok _ =>
    cases hplan : q.plan options with
    | error e =>
      rw [Query.compile_of_plan_error hcheck hplan] at herror
      cases herror
      exact plan q options fault hplan
    | ok select =>
      obtain ⟨query, hquery, -⟩ := Query.compile_of_plan hcheck hplan
      rw [hquery] at herror
      cases herror

end NoWriteError

/-! ## Queries -/

namespace PlanParts.Fits

variable {p : PlanParts} {q : Query} {options : CompileOptions} (h : p.Fits q options)
include h

/-- The column of a last value refers to the join of its time field. -/
theorem join_of_metric {i : Nat} {field timeField : String}
    (hmetric : q.request.metrics[i]? = some (.lastValue field timeField)) :
    ∃ (join : Nat) (aliasName : String) (joined : Join),
      p.measures[i]? = some ⟨.lastValue field timeField join, aliasName⟩ ∧
      q.times[join]? = some timeField ∧
      (p.select q options).joins[join]? = some joined ∧
      joined.relation.qualifier = some (lastValueAlias join) := by
  obtain ⟨⟨shape, aliasName⟩, _, hm, hshape⟩ := h.measure_of_metric hmetric
  cases hshape
  have htime : timeField ∈ q.times := Query.timeField_mem_times (List.mem_of_getElem? hmetric)
  have hjoin : q.times[q.times.idxOf timeField]? = some timeField := List.getElem?_idxOf htime
  obtain ⟨filter, -, hjoins⟩ := Query.lastValueJoins_eq_ok h.joins
  have hjoined : p.joins[q.times.idxOf timeField]? =
      some (lastValueJoin options.dialect (q.times.idxOf timeField) timeField
        (q.source.relation (some lastValueSourceAlias)) filter p.dimensions
        (p.outer q options)) := by
    rw [hjoins, List.getElem?_map, List.getElem?_zipIdx, hjoin, Nat.zero_add]
    rfl
  exact ⟨_, aliasName, _, hm, hjoin, hjoined, lastValueJoin_qualifier ..⟩

/-- The column of a percentile refers to the helper columns of its field, which are found among
all helper columns by the field. -/
theorem window_of_percentile {i : Nat} {field : String} {margin : Binary64}
    (hmetric : q.request.metrics[i]? = some (.percentile field margin)) :
    ∃ (window : PercentileWindow) (aliasName : String),
      p.measures[i]? = some ⟨.percentile window margin, aliasName⟩ ∧
      (q.windows options)[(q.windows options).findIdx (fun other => other.field = field)]? =
        some window := by
  obtain ⟨⟨shape, aliasName⟩, _, hm, hshape⟩ := h.measure_of_metric hmetric
  rw [Measure.shapeOf] at hshape
  split at hshape
  · cases hshape
    refine ⟨_, aliasName, hm, ?_⟩
    have hwindow := Query.ofField_mem_windows options (List.mem_of_getElem? hmetric)
    have hlt := List.findIdx_lt_length_of_exists (p := fun other => other.field = field)
      ⟨_, hwindow, decide_eq_true rfl⟩
    have hfield := List.findIdx_getElem (w := hlt)
    obtain ⟨other, -, hother⟩ := List.mem_map.mp (List.getElem_mem hlt)
    rw [List.getElem?_eq_getElem hlt, ← hother]
    rw [← hother] at hfield
    exact congrArg (fun name => some (PercentileWindow.ofField _ name)) (of_decide_eq_true hfield)
  · cases hshape

theorem isComplete_nested (hask : q.request.fault? = none) :
    ∀ s ∈ (p.select q options).nested, s.IsComplete := by
  obtain ⟨literals, hliterals, -, -⟩ := predicateOf_eq_ok h.filter
  exact Select.fault?_eq_none_iff _ |>.mp (h.bindsFilters hask hliterals).fault?

end PlanParts.Fits

/-- No request fails while its statement is written. Whenever the clauses fit together and there
is a plan, the request compiles: every statement in the plan, in derived tables and joins as well,
selects something, every choice in it is among some values and every aggregate other than the
count of rows has an argument, filters included. The column of a last value refers to the join of
its time field, and that of a percentile to helper columns of its field; both are there. -/
theorem compileRequest_writes (q : Query) (options : CompileOptions) :
    (∀ fault,
      compileRequest q.request q.source q.catalog options ≠ .error (.unwritable fault)) ∧
    ∀ select, q.check = .ok () → q.plan options = .ok select →
      (∃ query, compileRequest q.request q.source q.catalog options = .ok query) ∧
      (∀ s ∈ select.nested, s.IsComplete) ∧
      ∃ p : PlanParts, p.Fits q options ∧ select = p.select q options ∧
        (∀ (i : Nat) (field timeField : String),
          q.request.metrics[i]? = some (.lastValue field timeField) →
            ∃ (join : Nat) (aliasName : String) (joined : Join),
              p.measures[i]? = some ⟨.lastValue field timeField join, aliasName⟩ ∧
              q.times[join]? = some timeField ∧
              select.joins[join]? = some joined ∧
              joined.relation.qualifier = some (lastValueAlias join)) ∧
        ∀ (i : Nat) (field : String) (margin : Binary64),
          q.request.metrics[i]? = some (.percentile field margin) →
            ∃ (window : PercentileWindow) (aliasName : String),
              p.measures[i]? = some ⟨.percentile window margin, aliasName⟩ ∧
              (q.windows options)[(q.windows options).findIdx
                (fun other => other.field = field)]? = some window := by
  constructor
  · exact NoWriteError.compile q options
  · intro select hcheck hplan
    obtain ⟨query, hquery, -⟩ := Query.compile_of_plan hcheck hplan
    obtain ⟨p, hfits, rfl⟩ := Query.plan_eq_ok_iff.mp hplan
    have hask := Query.fault?_eq_none_of_check hcheck
    refine ⟨⟨query, hquery⟩, hfits.isComplete_nested hask, p, hfits, rfl, ?_, ?_⟩
    · intro i field timeField hmetric
      exact hfits.join_of_metric hmetric
    · intro i field margin hmetric
      exact hfits.window_of_percentile hmetric

/-- The last readings are written, with the filters in the outer query and in the only join. -/
theorem compileRequest_writes_lastReadings :
    ∃ query select,
      compileRequest lastReadings.request lastReadings.source lastReadings.catalog .default =
        .ok query ∧
      lastReadings.plan .default = .ok select ∧
      (∀ s ∈ select.nested, s.IsComplete) ∧
      ∃ join joined, lastReadings.times[join]? = some "time" ∧
        select.joins[join]? = some joined ∧
        joined.relation.qualifier = some (lastValueAlias join) := by
  obtain ⟨select, hplan⟩ := plan_lastReadings
  obtain ⟨-, hwrites⟩ := compileRequest_writes lastReadings .default
  obtain ⟨⟨query, hquery⟩, hcomplete, p, -, -, hjoins, -⟩ :=
    hwrites select check_lastReadings hplan
  obtain ⟨join, _, joined, -, htime, hjoined, hqualifier⟩ := hjoins 0 "value" "time" rfl
  exact ⟨query, select, hquery, hplan, hcomplete, join, joined, htime, hjoined, hqualifier⟩

end PagedQuery
