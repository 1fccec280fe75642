import PagedQuery.Proofs.Query.Ranks

/-!
# Helper columns

The derived table of the percentiles has the filtered rows, each with its
number and the number of rows of its group, for each percentile field. Joins
repeat such a row, but do not lose it.

* `Query.HelpersApart`: the names of helper columns do not clash;
* `helperCells`, `Query.rows_rankedSelect`: the rows of the derived table;
* `PlanParts.rankedRow`, `PlanParts.scopesAt`: what becomes of the row of a position.
-/

namespace PagedQuery

variable {δ : Type}

/-! ## Rows with further cells -/

theorem Row.lookup_eq_none {row : Row δ} {name : String} (h : ∀ cell ∈ row, cell.1 ≠ name) :
    row.lookup name = none := by
  rw [List.lookup_eq_none_iff]
  intro cell hcell
  simpa using (h cell hcell).symm

theorem Row.cell_append_of_notMem {row extra : Row δ} {name : String}
    (h : ∀ cell ∈ extra, cell.1 ≠ name) : Row.cell (row ++ extra) name = Row.cell row name := by
  rw [Row.cell, List.lookup_append, Row.lookup_eq_none h, Option.or_none, Row.cell]

theorem Row.cell_append_of_mem {row extra : Row δ} {name : String} {cell : Option δ}
    (hrow : ∀ cell ∈ row, cell.1 ≠ name) (hnodup : (extra.map Prod.fst).Nodup)
    (hcell : (name, cell) ∈ extra) : Row.cell (row ++ extra) name = cell := by
  obtain ⟨before, after, rfl⟩ := List.append_of_mem hcell
  rw [List.map_append, List.nodup_append] at hnodup
  have hbefore : before.lookup name = none := Row.lookup_eq_none fun other hother =>
    hnodup.2.2 other.1 (List.mem_map_of_mem hother) name List.mem_cons_self
  rw [Row.cell, List.lookup_append, Row.lookup_eq_none hrow, Option.none_or, List.lookup_append,
    hbefore, Option.none_or, List.lookup_cons_self, Option.join_some]

variable [LinearOrder δ] {db : Warehouse δ}

/-! ## Helper columns -/

/-- The names of the helper columns. -/
def Query.helperColumns (q : Query) (options : CompileOptions) : List String :=
  (q.windows options).flatMap fun window => [window.rankColumn, window.countColumn]

/-- The helper columns of a query are apart from each other, from the columns of its source and
from the columns that it asks for. -/
structure Query.HelpersApart (db : Warehouse δ) (q : Query) (options : CompileOptions) : Prop where
  nodup : (q.helperColumns options).Nodup
  rows : ∀ row ∈ q.filteredRows db options.dialect, ∀ cell ∈ row,
    cell.1 ∉ q.helperColumns options
  fields : ∀ field ∈ q.request.readFields, field ∉ q.helperColumns options

/-- The key of a row. -/
def keyOf (db : Warehouse δ) (dialect : Dialect) (dimensions : List Dimension) (row : Row δ) :
    List (Option δ) :=
  dimensions.map fun d => d.key db dialect row

/-- The helper columns of the row at a position. -/
def helperCells (db : Warehouse δ) (dialect : Dialect) (dimensions : List Dimension)
    (qualifier : Option String) (rows : List (Row δ)) (i : Nat) (window : PercentileWindow) :
    Row δ :=
  [(window.rankColumn, some (db.number (db.rankOf [(columnOf qualifier window.field, .ascending)]
      (keyOf db dialect dimensions) rows window.field i : Nat))),
    (window.countColumn,
      some (db.number ((partitionOf (keyOf db dialect dimensions) rows i).length : Nat)))]

section

variable {dialect : Dialect} {dimensions : List Dimension} {qualifier : Option String}
  {rows : List (Row δ)}

theorem flatMap_itemCells_window (row : Row δ) (i : Nat) (window : PercentileWindow) :
    (window.selectItems qualifier (dimensions.map (Dimension.expr dialect qualifier))).flatMap
        (db.itemCells (db.ofPosition (rows.map (Scope.single qualifier))
          (Scope.single qualifier row) i)) =
      helperCells db dialect dimensions qualifier rows i window := by
  have hpartitionKey (j : Nat) :
      ((rows.map (Scope.single qualifier))[j]?.map fun scope =>
        (dimensions.map (Dimension.expr dialect qualifier)).map (Expr.value db scope)) =
      rows[j]?.map (keyOf db dialect dimensions) := by
    rw [List.getElem?_map, Option.map_map]
    refine congrArg (Option.map · rows[j]?) (funext fun row => ?_)
    rw [Function.comp_apply, List.map_map]
    refine List.map_congr_left fun d _ => ?_
    rw [Function.comp_apply, Expr.value, d.eval_expr, Env.ofRow_scope, Scope.single_self]
  have hsortKey (j : Nat) :
      ((rows.map (Scope.single qualifier))[j]?.map fun scope =>
        [(columnOf qualifier window.field, Direction.ascending)].map fun key =>
          key.1.value db scope) =
      rows[j]?.map fun row => [Row.cell row window.field] := by
    rw [List.getElem?_map, Option.map_map]
    refine congrArg (Option.map · rows[j]?) (funext fun row => ?_)
    simp [columnOf]
  have hitem (func : WindowFunction) (partition : List Expr) (orderBy : List (Expr × Direction))
      (aliasName : String) (env : Env δ) :
      db.itemCells env ⟨.window func partition orderBy, some aliasName⟩ =
        [(aliasName, env.window func partition orderBy)] := by
    rw [db.itemCells_eq (fun _ => by rintro ⟨⟩), SelectItem.outputName?_of_alias rfl]
    rfl
  rw [PercentileWindow.selectItems, List.flatMap_cons, List.flatMap_cons, List.flatMap_nil, hitem,
    hitem]
  simp only [Warehouse.ofPosition, hpartitionKey, hsortKey, List.length_map, List.map_nil,
    keyBefore, Bool.not_false, List.filter_true]
  rfl

theorem flatMap_rankedItems (base : Relation) (filter : Option Expr)
    (windows : List PercentileWindow) (row : Row δ) (i : Nat) :
    (rankedSelect dialect base filter dimensions windows).items.flatMap
        (db.itemCells (db.ofPosition (rows.map (Scope.single base.qualifier))
          (Scope.single base.qualifier row) i)) =
      row ++ windows.flatMap (helperCells db dialect dimensions base.qualifier rows i) := by
  rw [rankedSelect, List.flatMap_cons, List.flatMap_assoc]
  congr 1
  · exact Scope.single_self ..
  · exact List.flatMap_congr fun window _ => flatMap_itemCells_window row i window

/-- The derived table has the filtered rows, each with helper columns. -/
theorem Query.rows_rankedSelect {q : Query} {options : CompileOptions} {aliasName : Option String}
    {filter : Option Expr} {windows : List PercentileWindow}
    (hfilter : predicateOf (q.context options) (q.source.relation aliasName).qualifier
      q.request.filters = .ok filter) :
    (rankedSelect options.dialect (q.source.relation aliasName) filter dimensions windows).rows db =
      (q.filteredRows db options.dialect).zipIdx.map fun (row, i) =>
        row ++ windows.flatMap (helperCells db options.dialect dimensions
          (q.source.relation aliasName).qualifier (q.filteredRows db options.dialect) i) := by
  have hscopes : (rankedSelect options.dialect (q.source.relation aliasName) filter dimensions
      windows).scopes db = (q.filteredRows db options.dialect).map
        (Scope.single (q.source.relation aliasName).qualifier) := filter_rows_relation hfilter
  have haggregate : (rankedSelect options.dialect (q.source.relation aliasName) filter dimensions
      windows).items.any (fun item => item.expr.hasAggregate) = false := by
    rw [List.any_eq_false]
    intro item hitem
    rw [hasAggregate_rankedItems hitem]
    exact Bool.false_ne_true
  rw [Select.rows_eq, hscopes, Warehouse.envs, haggregate, Bool.not_false, Bool.and_true]
  change ((((q.filteredRows db options.dialect).map _).zipIdx.map _).map _) = _
  rw [List.zipIdx_map, List.map_map, List.map_map]
  exact List.map_congr_left fun key _ => flatMap_rankedItems _ filter windows key.1 key.2

theorem map_fst_helperCells (q : Query) (options : CompileOptions) (rows : List (Row δ))
    (i : Nat) :
    ((q.windows options).flatMap (helperCells db dialect dimensions qualifier rows i)).map
      Prod.fst = q.helperColumns options := by
  rw [List.map_flatMap]
  rfl

/-! ### Cells of rows with helper columns -/

section

variable {q : Query} {options : CompileOptions} (h : q.HelpersApart db options)
  {row : Row δ} (hrow : row ∈ q.filteredRows db options.dialect) {i : Nat}
include h

/-- Columns that a query asks for are the ones of the source. -/
theorem Query.HelpersApart.cell_field {field : String} (hfield : field ∈ q.request.readFields) :
    Row.cell (row ++ (q.windows options).flatMap
        (helperCells db dialect dimensions qualifier rows i)) field = Row.cell row field := by
  refine Row.cell_append_of_notMem fun cell hcell heq => h.fields field hfield ?_
  rw [← heq, ← map_fst_helperCells q options rows i]
  exact List.mem_map_of_mem hcell

include hrow

theorem Query.HelpersApart.cell_helper {name : String} {cell : Option δ}
    {window : PercentileWindow} (hwindow : window ∈ q.windows options)
    (hcell : (name, cell) ∈ helperCells db dialect dimensions qualifier rows i window) :
    Row.cell (row ++ (q.windows options).flatMap
        (helperCells db dialect dimensions qualifier rows i)) name = cell := by
  have hmem : (name, cell) ∈ (q.windows options).flatMap
      (helperCells db dialect dimensions qualifier rows i) :=
    List.mem_flatMap.mpr ⟨window, hwindow, hcell⟩
  refine Row.cell_append_of_mem (fun other hother heq => h.rows row hrow other hother ?_) ?_ hmem
  · rw [heq, ← map_fst_helperCells q options rows i]
    exact List.mem_map_of_mem hmem
  · rw [map_fst_helperCells]
    exact h.nodup

end

end

/-! ## Rows with helper columns -/

/-- The row of a position, with the helper columns of the percentiles. -/
def PlanParts.rankedRow (db : Warehouse δ) (p : PlanParts) (q : Query) (options : CompileOptions)
    (position : Row δ × Nat) : Row δ :=
  position.1 ++ (q.windows options).flatMap (helperCells db options.dialect p.dimensions
    (q.base options).qualifier (q.filteredRows db options.dialect) position.2)

/-- The rows that are joined to the row of a position. -/
def PlanParts.scopesAt (db : Warehouse δ) (p : PlanParts) (q : Query) (options : CompileOptions)
    (position : Row δ × Nat) : List (Scope δ) :=
  Select.joined db p.joins [Scope.single (p.outer q options) (p.rankedRow db q options position)]

namespace PlanParts.Fits

variable {p : PlanParts} {q : Query} {options : CompileOptions} (h : p.Fits q options)
include h

theorem baseRows_eq :
    p.baseRows db q options =
      (q.filteredRows db options.dialect).zipIdx.map (p.rankedRow db q options) := by
  unfold baseRows
  split
  · rename_i hwindows
    have hrow : p.rankedRow db q options = Prod.fst := by
      funext position
      rw [rankedRow, List.isEmpty_iff.mp hwindows, List.flatMap_nil, List.append_nil]
    rw [hrow, List.zipIdx_map_fst]
  · exact Query.rows_rankedSelect h.filter

theorem scopes_eq_flatMap :
    (p.select q options).scopes db =
      (q.filteredRows db options.dialect).zipIdx.flatMap (p.scopesAt db q options) := by
  rw [h.scopes_select, h.baseRows_eq, Select.joined_eq_flatMap, List.map_map, List.flatMap_map]
  rfl

theorem scopesAt_ne_nil (position : Row δ × Nat) : p.scopesAt db q options position ≠ [] := by
  refine Select.joined_ne_nil (fun join hjoin => ?_) (List.cons_ne_nil _ _)
  obtain ⟨k, timeField, filter, -, -, rfl⟩ := h.join_cases hjoin
  rfl

theorem scope_of_mem_scopesAt {position : Row δ × Nat} {scope : Scope δ}
    (hscope : scope ∈ p.scopesAt db q options position) :
    scope (p.outer q options) = p.rankedRow db q options position := by
  rw [Select.scope_of_mem_joined (fun join hjoin => h.outer_ne_qualifier hjoin) hscope,
    Scope.single_self]

end PlanParts.Fits

end PagedQuery
