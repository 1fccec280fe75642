import PagedQuery.Proofs.Relational.Rows

/-!
# Values in a plan

A dimension, a filter or a measure is written for several relations of a plan.
Its value depends only on the cells of the row that it reads, whatever the alias
of the relation.

* `Dimension.key`, `Dimension.eval_expr`: the key of a row in a dimension;
* `Query.passes`, `all_holds_eq_passes`: the rows that pass the filters of a query;
* `Warehouse.sentinel`, `holds_lastValueJoin_iff`: the condition of a join;
* `Metric.over`, `Stat.over`: what metrics and statistics are of a list of rows.
-/

namespace PagedQuery

variable {δ : Type}

/-! ## Rows of joined sub-selects -/

/-- The row of a joined sub-select: the key of a group and its greatest time. -/
def latestRow (key : List (Option δ)) (latest : Option δ) : Row δ :=
  (key.zipIdx.map fun (cell, i) => (groupColumn i, cell)) ++ [(maxTimeColumn, latest)]

theorem lookup_groupColumn (key : List (Option δ)) (n i : Nat) :
    List.lookup (groupColumn (n + i)) ((key.zipIdx n).map fun (cell, i) => (groupColumn i, cell)) =
      key[i]? := by
  induction key generalizing n i with
  | nil => rfl
  | cons cell rest ih =>
    rw [List.zipIdx_cons, List.map_cons, List.lookup_cons]
    cases i with
    | zero => simp
    | succ i =>
      have hne : groupColumn (n + (i + 1)) ≠ groupColumn n := fun h => by
        have := groupColumn_injective h
        omega
      rw [beq_false_of_ne hne, ← Nat.add_assoc, Nat.add_right_comm]
      exact ih (n + 1) i

theorem cell_latestRow_groupColumn (key : List (Option δ)) (latest : Option δ) (i : Nat) :
    Row.cell (latestRow key latest) (groupColumn i) = key[i]?.join := by
  have hlookup := lookup_groupColumn key 0 i
  rw [Nat.zero_add] at hlookup
  have hlast : List.lookup (groupColumn i) [(maxTimeColumn, latest)] = none := by
    rw [List.lookup_cons, beq_false_of_ne (groupColumn_ne_maxTimeColumn i)]
    rfl
  rw [Row.cell, latestRow, List.lookup_append, hlookup, hlast, Option.or_none]

theorem cell_latestRow_maxTimeColumn (key : List (Option δ)) (latest : Option δ) :
    Row.cell (latestRow key latest) maxTimeColumn = latest := by
  have hlookup (n : Nat) : List.lookup maxTimeColumn
      ((key.zipIdx n).map fun (cell, i) => (groupColumn i, cell)) = none := by
    rw [List.lookup_eq_none_iff]
    intro pair hpair
    obtain ⟨⟨cell, i⟩, -, rfl⟩ := List.mem_map.mp hpair
    simpa using (groupColumn_ne_maxTimeColumn i).symm
  unfold Row.cell latestRow
  rw [List.lookup_append, hlookup, Option.none_or, List.lookup_cons_self]
  rfl

variable [LinearOrder δ] (db : Warehouse δ)

/-! ## Dimensions -/

section

variable {db} {env env' : Env δ} {e e' : Expr}

theorem Expr.evalBranches_congr {otherwise : Option δ} {branches branches' : List (Expr × Expr)}
    (h : List.Forall₂ (fun branch branch' => branch.1.eval db env = branch'.1.eval db env' ∧
      branch.2.eval db env = branch'.2.eval db env') branches branches') :
    Expr.evalBranches db env otherwise branches =
      Expr.evalBranches db env' otherwise branches' := by
  induction h with
  | nil => rfl
  | @cons branch branch' _ _ hfirst _ ih =>
    obtain ⟨condition, value⟩ := branch
    obtain ⟨condition', value'⟩ := branch'
    rw [evalBranches, evalBranches, hfirst.1, hfirst.2, ih]

theorem Dialect.eval_truncate_congr (h : e.eval db env = e'.eval db env') (dialect : Dialect)
    (granularity : Granularity) :
    (dialect.truncate e granularity).eval db env =
      (dialect.truncate e' granularity).eval db env' := by
  cases dialect <;> cases granularity <;>
    simp [truncate, truncateByFormat, reformatted, Expr.eval, Expr.evalList, Expr.string, Expr.int,
      h]

theorem Dialect.eval_epochSeconds_congr (h : e.eval db env = e'.eval db env') (dialect : Dialect) :
    (dialect.epochSeconds e).eval db env = (dialect.epochSeconds e').eval db env' := by
  cases dialect <;> simp [epochSeconds, Expr.eval, Expr.evalList, h]

theorem Dialect.eval_epochMillis_congr (h : e.eval db env = e'.eval db env') (dialect : Dialect) :
    (dialect.epochMillis e).eval db env = (dialect.epochMillis e').eval db env' := by
  cases dialect <;> simp [epochMillis, Expr.eval, Expr.evalList, Expr.int, h]

theorem Dimension.eval_histogramCase_congr (h : e.eval db env = e'.eval db env')
    (points : List Binary64) :
    (histogramCase e points).eval db env = (histogramCase e' points).eval db env' := by
  have hlabel (label : Expr) (hlabel : label ∈ (bucketLabels "" points).map Expr.string) :
      label.eval db env = label.eval db env' := by
    obtain ⟨text, -, rfl⟩ := List.mem_map.mp hlabel
    rfl
  have hotherwise :
      Expr.evalOption db env ((bucketLabels "" points).map Expr.string).getLast? =
        Expr.evalOption db env' ((bucketLabels "" points).map Expr.string).getLast? := by
    cases hlast : ((bucketLabels "" points).map Expr.string).getLast? with
    | none => rfl
    | some label => exact hlabel label (List.mem_of_getLast? hlast)
  simp only [histogramCase, Expr.eval, hotherwise]
  refine Expr.evalBranches_congr (.cons ⟨?_, rfl⟩ ?_)
  · simp only [Expr.eval, h]
  · rw [List.forall₂_map_left_iff, List.forall₂_map_right_iff, List.forall₂_same]
    rintro ⟨point, label⟩ hmem
    exact ⟨by simp only [Expr.eval, h], hlabel label (List.of_mem_zip hmem).2⟩

end

namespace Dimension

/-- The key of a row: the value that it is grouped by. -/
def key (dialect : Dialect) (d : Dimension) (row : Row δ) : Option δ :=
  (d.expr dialect none).value db (Scope.single none row)

variable {db}

theorem eval_expr_congr {dialect : Dialect} {d : Dimension} {env env' : Env δ}
    {qualifier qualifier' : Option String}
    (h : Row.cell (env.scope qualifier) d.field = Row.cell (env'.scope qualifier') d.field) :
    (d.expr dialect qualifier).eval db env = (d.expr dialect qualifier').eval db env' := by
  have hcolumn :
      (columnOf qualifier d.field).eval db env = (columnOf qualifier' d.field).eval db env' := h
  unfold expr
  cases d.shape with
  | «attribute» => exact hcolumn
  | time source granularity =>
    cases source with
    | year => exact hcolumn
    | native => exact dialect.eval_truncate_congr hcolumn _
    | epochSeconds =>
      exact dialect.eval_truncate_congr (dialect.eval_epochSeconds_congr hcolumn) _
    | epochMillis => exact dialect.eval_truncate_congr (dialect.eval_epochMillis_congr hcolumn) _
  | histogram points => exact eval_histogramCase_congr hcolumn points

/-- The key of a row is the same for every alias. -/
theorem eval_expr (dialect : Dialect) (d : Dimension) (qualifier : Option String) (env : Env δ) :
    (d.expr dialect qualifier).eval db env = d.key db dialect (env.scope qualifier) := by
  refine eval_expr_congr ?_
  rw [Env.ofRow_scope, Scope.single_self]

/-- The key of a row is decided by one cell. -/
theorem key_congr {dialect : Dialect} {d : Dimension} {row row' : Row δ}
    (h : Row.cell row d.field = Row.cell row' d.field) :
    d.key db dialect row = d.key db dialect row' := by
  refine eval_expr_congr ?_
  rwa [Env.ofRow_scope, Env.ofRow_scope, Scope.single_self, Scope.single_self]

theorem expr_ne_wildcard (dialect : Dialect) (d : Dimension) (qualifier other : Option String) :
    d.expr dialect qualifier ≠ .wildcard other := by
  unfold expr
  cases d.shape with
  | «attribute» => rintro ⟨⟩
  | time source granularity =>
    cases source <;> cases dialect <;> cases granularity <;> rintro ⟨⟩
  | histogram points => rintro ⟨⟩

end Dimension

/-! ## Filters -/

section

variable {db} {ctx : Context} {qualifier qualifier' : Option String} {env env' : Env δ}

/-- The conditions of a leaf for two relations have the same value if the relations have the same
row. -/
theorem Leaf.predicate_sameValue (h : env.scope qualifier = env'.scope qualifier') (leaf : Leaf) :
    SameOutcome (fun e e' => e.eval db env = e'.eval db env') (leaf.predicate ctx qualifier)
      (leaf.predicate ctx qualifier') := by
  have hcolumn : (columnOf qualifier leaf.field).eval db env =
      (columnOf qualifier' leaf.field).eval db env' := by
    simp only [columnOf, Expr.eval, h]
  have hbind (fieldType : FieldType) (text : String) :
      SameOutcome (fun e e' => e.eval db env = e'.eval db env') (leaf.bind fieldType text)
        (leaf.bind fieldType text) := by
    unfold Leaf.bind
    split
    · exact .ok rfl
    · exact .error _
  have hchoice (fieldType : FieldType) :
      SameOutcome (fun es es' => Expr.evalList db env es = Expr.evalList db env' es')
        (leaf.values.mapM (leaf.bind fieldType)) (leaf.values.mapM (leaf.bind fieldType)) := by
    cases hes : leaf.values.mapM (leaf.bind fieldType) with
    | error e => exact .error e
    | ok es =>
      obtain ⟨values, -, -, rfl⟩ := Leaf.mapM_bind hes
      refine .ok ?_
      rw [Expr.evalList_eq_map, Expr.evalList_eq_map, List.map_map, List.map_map]
      rfl
  unfold Leaf.predicate
  by_cases hnull : leaf.op = .isNull
  · simp only [hnull, if_true]
    exact .ok (by simp only [Expr.eval, hcolumn])
  by_cases hstring : leaf.op.isStringOnly
  · simp only [hnull, hstring, if_true, if_false]
    split
    · refine SameOutcome.bind (.of_eq rfl) ?_
      rintro text _ rfl
      refine .ok ?_
      unfold stringPredicate
      split
      · simp only [Expr.eval, Expr.evalList, hcolumn]
      · simp only [Expr.eval, hcolumn]
      · cases ctx.dialect <;>
          simp only [Dialect.textSearch, Expr.int, Expr.eval, Expr.evalList, hcolumn]
    · exact .error _
  simp only [hnull, hstring, if_false]
  refine SameOutcome.bind (.of_eq rfl) ?_
  rintro fieldType _ rfl
  split
  · split
    · exact .error _
    · refine (hchoice fieldType).bind fun es es' hes => .ok ?_
      simp only [Expr.eval, hcolumn, hes]
  · refine SameOutcome.bind (.of_eq rfl) ?_
    rintro text _ rfl
    refine (hbind fieldType text).bind fun e e' he => .ok ?_
    simp only [Expr.eval, hcolumn, he]

theorem Expr.evalList_congr {es es' : List Expr}
    (h : List.Forall₂ (fun e e' => e.eval db env = e'.eval db env') es es') :
    Expr.evalList db env es = Expr.evalList db env' es' := by
  induction h with
  | nil => rfl
  | cons hfirst _ ih => rw [evalList, evalList, hfirst, ih]

theorem Filter.predicates_sameValue (h : env.scope qualifier = env'.scope qualifier')
    (filters : List Filter) :
    SameOutcome (List.Forall₂ fun e e' => e.eval db env = e'.eval db env')
      (Filter.predicates ctx qualifier filters) (Filter.predicates ctx qualifier' filters) := by
  refine Filter.predicates_related (Leaf.predicate_sameValue h) ?_ ?_ ?_ filters
  · intro e e' he
    simp only [Expr.eval, he]
  · intro es es' hes
    simp only [Expr.eval, Expr.evalList_congr hes]
  · intro es es' hes
    simp only [Expr.eval, Expr.evalList_congr hes]

end

/-- Whether a row passes the filters of a query. -/
def Query.passes (q : Query) (dialect : Dialect) (row : Row δ) : Bool :=
  match predicateOf { catalog := q.catalog, dialect } none q.request.filters with
  | .ok filter => filter.all fun condition => db.holds condition (Scope.single none row)
  | .error _ => false

variable {db} in
/-- The filters of a query let the same rows pass wherever they stand. -/
theorem all_holds_eq_passes {q : Query} {dialect : Dialect} {qualifier : Option String}
    {filter : Option Expr}
    (h : predicateOf { catalog := q.catalog, dialect } qualifier q.request.filters = .ok filter)
    (scope : Scope δ) :
    (filter.all fun condition => db.holds condition scope) =
      q.passes db dialect (scope qualifier) := by
  have hscope : (Env.ofRow scope).scope qualifier =
      (Env.ofRow (Scope.single none (scope qualifier))).scope none := by
    rw [Env.ofRow_scope, Env.ofRow_scope, Scope.single_self]
  have houtcome : SameOutcome (List.Forall₂ fun e e' => e.eval db (.ofRow scope) =
      e'.eval db (.ofRow (Scope.single none (scope qualifier))))
      (Filter.predicates { catalog := q.catalog, dialect } qualifier q.request.filters)
      (Filter.predicates { catalog := q.catalog, dialect } none q.request.filters) :=
    Filter.predicates_sameValue hscope q.request.filters
  unfold Query.passes
  rw [predicateOf_eq] at h ⊢
  obtain ⟨es, hes, h⟩ := bind_eq_ok_iff.mp h
  cases h
  rw [hes] at houtcome
  generalize Filter.predicates { catalog := q.catalog, dialect } none q.request.filters = outcome
    at houtcome
  cases houtcome with
  | @ok _ es' hvalues =>
  change _ = (conjunctionOf es').all _
  cases hvalues with
  | nil => rfl
  | cons hfirst hrest =>
    cases hrest with
    | nil => exact congrArg (fun value => decide (db.toTruth value = .holds)) hfirst
    | cons hsecond hrest =>
      have hlist := Expr.evalList_congr (.cons hfirst (.cons hsecond hrest))
      exact congrArg (fun values =>
        decide (db.toTruth (db.ofTruth (.all (values.map db.toTruth))) = .holds)) hlist

/-! ## Conditions of joins -/

namespace Warehouse

/-- The datum that stands for null among the data of a type. -/
def sentinel (dialect : Dialect) : FieldType → δ
  | .integer => db.number numericSentinel
  | .double => db.number numericSentinel
  | .date => db.timestampSentinel dialect
  | .string => db.text stringSentinel
  | .unknown => db.text stringSentinel

/-- A key with data in the place of nulls. -/
def filled (dialect : Dialect) (dimensions : List Dimension) (key : List (Option δ)) : List δ :=
  List.zipWith (fun d cell => cell.getD (db.sentinel dialect d.outputType)) dimensions key

theorem filled_map_eq_iff {dialect : Dialect} {dimensions : List Dimension}
    {value : Dimension → Option δ} {key : List (Option δ)}
    (hlength : key.length = dimensions.length) :
    db.filled dialect dimensions (dimensions.map value) = db.filled dialect dimensions key ↔
      ∀ (i : Nat) (d : Dimension), dimensions[i]? = some d →
        (value d).getD (db.sentinel dialect d.outputType) =
          (key[i]?.join).getD (db.sentinel dialect d.outputType) := by
  induction dimensions generalizing key with
  | nil => simp [filled]
  | cons first rest ih =>
    cases key with
    | nil => cases hlength
    | cons cell key =>
      have hrest := ih (Nat.succ.inj hlength)
      unfold filled at hrest ⊢
      rw [List.map_cons, List.zipWith_cons_cons, List.zipWith_cons_cons, List.cons.injEq, hrest]
      constructor
      · rintro ⟨hfirst, hrest⟩ (_ | i) d hd
        · cases hd
          exact hfirst
        · exact hrest i d hd
      · exact fun h => ⟨h 0 first rfl, fun i d hd => h (i + 1) d hd⟩

end Warehouse

section

variable {db} {env : Env δ} {dialect : Dialect}

theorem eval_sentinelFor (fieldType : FieldType) :
    (sentinelFor dialect fieldType).eval db env = some (db.sentinel dialect fieldType) := by
  cases fieldType with
  | date => cases dialect <;> exact db.raw_timestampSentinel _ _ rfl env
  | _ => rfl

theorem toTruth_sameGroup {outer : Option String} {joined : String} {index : Nat}
    {d : Dimension} :
    db.toTruth ((sameGroup dialect outer joined index d).eval db env) = .holds ↔
      (d.key db dialect (env.scope outer)).getD (db.sentinel dialect d.outputType) =
        (Row.cell (env.scope (some joined)) (groupColumn index)).getD
          (db.sentinel dialect d.outputType) := by
  have hcoalesce (e : Expr) : (Expr.coalesce [e, sentinelFor dialect d.outputType]).eval db env =
      some ((e.eval db env).getD (db.sentinel dialect d.outputType)) := by
    cases hvalue : e.eval db env <;> simp [Expr.eval, Expr.evalList, hvalue, eval_sentinelFor]
  rw [sameGroup, Expr.eval, hcoalesce, hcoalesce, db.toTruth_ofTruth, d.eval_expr,
    Warehouse.compare, Truth.ofBool_eq_holds_iff, Warehouse.relates, decide_eq_true_iff]
  rfl

omit [LinearOrder δ] in
/-- Cells with a datum in the place of null are the same if the cells are, or if one of them is
null and the other one that datum. -/
theorem getD_eq_getD_iff {sentinel : δ} {a b : Option δ} :
    a.getD sentinel = b.getD sentinel ↔
      a = b ∨ (a = none ∧ b = some sentinel) ∨ (a = some sentinel ∧ b = none) := by
  cases a <;> cases b <;> simp [eq_comm]

/-- The condition of a join holds if it holds in each position. -/
theorem holds_lastValueJoin_iff_forall {index : Nat} {timeField : String} {source : Relation}
    {filter : Option Expr} {dimensions : List Dimension} {outer : Option String}
    {scope : Scope δ} :
    db.holds (lastValueJoin dialect index timeField source filter dimensions outer).condition
        scope = true ↔
      ∀ (i : Nat) (d : Dimension), dimensions[i]? = some d →
        (d.key db dialect (scope outer)).getD (db.sentinel dialect d.outputType) =
          (Row.cell (scope (some (lastValueAlias index))) (groupColumn i)).getD
            (db.sentinel dialect d.outputType) := by
  have hconditions : db.holds (lastValueJoin dialect index timeField source filter dimensions
      outer).condition scope = true ↔
      ∀ (i : Nat) (d : Dimension), dimensions[i]? = some d →
        db.toTruth ((sameGroup dialect outer (lastValueAlias index) i d).eval db (.ofRow scope)) =
          .holds := by
    unfold lastValueJoin
    dsimp only
    split
    · rename_i hempty
      have hnil : dimensions = [] := by simpa using hempty
      simp [hnil, Warehouse.holds, Expr.value, Expr.eval, Expr.int, Warehouse.literal,
        Warehouse.compare, Warehouse.relates, Truth.ofBool]
    · rw [Warehouse.holds, decide_eq_true_iff, Expr.value, Expr.eval, db.toTruth_ofTruth,
        Truth.all_eq_holds_iff, Expr.evalList_eq_map]
      simp only [List.forall_mem_map, Prod.forall, List.mk_mem_zipIdx_iff_getElem?]
      exact forall_comm
  rw [hconditions]
  refine forall_congr' fun i => forall_congr' fun d => imp_congr_right fun _ => ?_
  rw [toTruth_sameGroup, Env.ofRow_scope]

/-- A row is joined to the groups that have its key, as far as null and the datum that stands for
it are the same. -/
theorem holds_lastValueJoin_iff {index : Nat} {timeField : String} {source : Relation}
    {filter : Option Expr} {dimensions : List Dimension} {outer : Option String} {scope : Scope δ}
    {key : List (Option δ)} {latest : Option δ} (hlength : key.length = dimensions.length)
    (hscope : scope (some (lastValueAlias index)) = latestRow key latest) :
    db.holds (lastValueJoin dialect index timeField source filter dimensions outer).condition
        scope = true ↔
      db.filled dialect dimensions (dimensions.map fun d => d.key db dialect (scope outer)) =
        db.filled dialect dimensions key := by
  rw [holds_lastValueJoin_iff_forall, db.filled_map_eq_iff hlength]
  refine forall_congr' fun i => forall_congr' fun d => imp_congr_right fun _ => ?_
  rw [hscope, cell_latestRow_groupColumn]

end

end PagedQuery
