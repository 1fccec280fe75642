import PagedQuery.Proofs.Query.Percentiles

/-!
# Percentiles and the place of null

Rows are ranked by a field, and nothing says where null goes. Databases with the
same content have the same groups, but where null comes first, rows without a
value are ranked before all others and count as reached. A percentile may then
be less than where null comes last.

* `RowOrder`, `Warehouse.withOrder`: the same content in different orders;
* `Query.groups_withOrder`: groups do not depend on the order;
* `percentileIn_true_eq_iff`: groups whose percentile does not depend on it either;
* `Query.percentiles_of_nullOrder`: the percentiles of a compiled query in two orders.
-/

namespace PagedQuery

variable {δ : Type} [LinearOrder δ]

/-! ## Orders of rows -/

/-- How a database puts rows in order: where null goes, and how rows with the same sort key come. -/
structure RowOrder (δ : Type) [LinearOrder δ] where
  nullsFirst : Direction → Bool
  arrange : List (Expr × Direction) → (members : List Nat) → (Nat → List (Option δ)) → List Nat
  arrange_perm : ∀ orderBy members sortKey, (arrange orderBy members sortKey).Perm members
  arrange_pairwise : ∀ orderBy members sortKey,
    (arrange orderBy members sortKey).Pairwise fun i j =>
      keyBefore nullsFirst (orderBy.map Prod.snd) (sortKey j) (sortKey i) = false

/-- The order that inserts one row after the other. -/
def RowOrder.inserting (nullsFirst : Direction → Bool) : RowOrder δ where
  nullsFirst := nullsFirst
  arrange orderBy members sortKey :=
    members.insertionSort fun i j =>
      keyBefore nullsFirst (orderBy.map Prod.snd) (sortKey j) (sortKey i) = false
  arrange_perm _ members _ := List.perm_insertionSort _ members
  arrange_pairwise _ _ _ := pairwise_insertionSort_keyBefore ..

/-- The same content and functions, with rows in another order. -/
def Warehouse.withOrder (db : Warehouse δ) (order : RowOrder δ) : Warehouse δ :=
  { db with
    nullsFirst := order.nullsFirst
    arrange := order.arrange
    arrange_perm := order.arrange_perm
    arrange_pairwise := order.arrange_pairwise }

@[simp] theorem Warehouse.withOrder_nullsFirst (db : Warehouse δ) (order : RowOrder δ) :
    (db.withOrder order).nullsFirst = order.nullsFirst :=
  rfl

theorem Warehouse.IsExact.withOrder {db : Warehouse δ} (h : db.IsExact) (order : RowOrder δ) :
    (db.withOrder order).IsExact where
  float := h.float
  multiply := h.multiply
  divide := h.divide

section

variable (db : Warehouse δ) (order : RowOrder δ)

mutual

/-- Values do not depend on the order, other than through windows. -/
theorem Expr.eval_withOrder (env : Env δ) :
    (e : Expr) → e.eval (db.withOrder order) env = e.eval db env
  | .column _ | .literal _ | .param _ | .raw _ | .aggregate .. | .window .. | .wildcard _ => rfl
  | .compare left op right => by
    rw [Expr.eval, Expr.eval, eval_withOrder env left, eval_withOrder env right]
    rfl
  | .inList expr values => by
    rw [Expr.eval, Expr.eval, eval_withOrder env expr, evalList_withOrder env values]
    rfl
  | .all parts => by
    rw [Expr.eval, Expr.eval, evalList_withOrder env parts]
    rfl
  | .any parts => by
    rw [Expr.eval, Expr.eval, evalList_withOrder env parts]
    rfl
  | .not expr => by
    rw [Expr.eval, Expr.eval, eval_withOrder env expr]
    rfl
  | .arithmetic op left right => by
    rw [Expr.eval, Expr.eval, eval_withOrder env left, eval_withOrder env right]
    rfl
  | .isNull expr => by
    rw [Expr.eval, Expr.eval, eval_withOrder env expr]
    rfl
  | .isNotNull expr => by
    rw [Expr.eval, Expr.eval, eval_withOrder env expr]
    rfl
  | .case branches otherwise => by
    rw [Expr.eval, Expr.eval, evalOption_withOrder env otherwise,
      evalBranches_withOrder env _ branches]
  | .coalesce exprs => by
    rw [Expr.eval, Expr.eval, evalList_withOrder env exprs]
  | .call function args => by
    rw [Expr.eval, Expr.eval, evalList_withOrder env args]
    rfl
  | .cast expr typeName => by
    rw [Expr.eval, Expr.eval, eval_withOrder env expr]
    rfl

theorem Expr.evalList_withOrder (env : Env δ) :
    (es : List Expr) → Expr.evalList (db.withOrder order) env es = Expr.evalList db env es
  | [] => rfl
  | e :: rest => by
    rw [Expr.evalList, Expr.evalList, eval_withOrder env e, evalList_withOrder env rest]

theorem Expr.evalBranches_withOrder (env : Env δ) (otherwise : Option δ) :
    (branches : List (Expr × Expr)) →
      Expr.evalBranches (db.withOrder order) env otherwise branches =
        Expr.evalBranches db env otherwise branches
  | [] => rfl
  | (condition, value) :: rest => by
    rw [Expr.evalBranches, Expr.evalBranches, eval_withOrder env condition,
      eval_withOrder env value, evalBranches_withOrder env otherwise rest]
    rfl

theorem Expr.evalOption_withOrder (env : Env δ) :
    (e : Option Expr) → Expr.evalOption (db.withOrder order) env e = Expr.evalOption db env e
  | none => rfl
  | some e => by
    rw [Expr.evalOption, Expr.evalOption, eval_withOrder env e]

end

theorem Dimension.key_withOrder (dialect : Dialect) (d : Dimension) (row : Row δ) :
    d.key (db.withOrder order) dialect row = d.key db dialect row :=
  Expr.eval_withOrder ..

theorem Query.filteredRows_withOrder (q : Query) (dialect : Dialect) :
    q.filteredRows (db.withOrder order) dialect = q.filteredRows db dialect := by
  have hholds (condition : Expr) (scope : Scope δ) :
      (db.withOrder order).holds condition scope = db.holds condition scope := by
    rw [Warehouse.holds, Expr.value, Expr.eval_withOrder]
    rfl
  have hpasses (row : Row δ) :
      q.passes (db.withOrder order) dialect row = q.passes db dialect row := by
    simp only [passes, hholds]
  have hrows : (q.source.relation none).rows (db.withOrder order) =
      (q.source.relation none).rows db := by
    cases q.source <;> rfl
  unfold filteredRows
  rw [hrows]
  exact List.filter_congr fun row _ => hpasses row

/-- The groups of a query do not depend on the order of rows. -/
theorem Query.groups_withOrder (q : Query) (options : CompileOptions) :
    q.groups (db.withOrder order) options = q.groups db options := by
  simp only [groups, filteredRows_withOrder, Dimension.key_withOrder]

variable {db}

theorem Query.HelpersApart.withOrder {q : Query} {options : CompileOptions}
    (h : q.HelpersApart db options) : q.HelpersApart (db.withOrder order) options where
  nodup := h.nodup
  rows := by
    rw [filteredRows_withOrder]
    exact h.rows
  fields := h.fields

end

/-! ## Percentiles in two orders -/

section

variable {rows : List (Row δ)} {field : String} {margin : ℚ}

theorem percentileIn_eq_some_iff {nullFirst : Bool} {datum : δ} :
    percentileIn nullFirst rows field margin = some datum ↔
      (datum ∈ dataOf rows field ∧
        margin * rows.length ≤ 100 * (reachedIn nullFirst rows field datum : ℚ)) ∧
      ∀ other ∈ dataOf rows field,
        margin * rows.length ≤ 100 * (reachedIn nullFirst rows field other : ℚ) →
          datum ≤ other := by
  simp only [percentileIn, List.min?_eq_some_iff, List.mem_filter, decide_eq_true_iff, and_imp]

theorem percentileIn_eq_none_iff {nullFirst : Bool} :
    percentileIn nullFirst rows field margin = none ↔
      ∀ datum ∈ dataOf rows field,
        ¬ margin * rows.length ≤ 100 * (reachedIn nullFirst rows field datum : ℚ) := by
  simp only [percentileIn, List.min?_eq_none_iff, List.filter_eq_nil_iff, decide_eq_true_iff]

/-- Rows without a value come before a datum only if null comes first. -/
theorem reachedIn_false_le (rows : List (Row δ)) (field : String) (datum : δ) :
    reachedIn false rows field datum ≤ reachedIn true rows field datum := by
  refine List.countP_mono_left fun row _ hreached => ?_
  cases hcell : Row.cell row field with
  | none => rfl
  | some other =>
    rw [hcell] at hreached
    exact hreached

/-- A datum with enough rows up to it has them if null comes first, too. -/
theorem enough_of_enough_last {datum : δ}
    (h : margin * rows.length ≤ 100 * (reachedIn false rows field datum : ℚ)) :
    margin * rows.length ≤ 100 * (reachedIn true rows field datum : ℚ) := by
  have hle := reachedIn_false_le rows field datum
  exact h.trans (by gcongr)

/-- The percentile does not depend on the place of null exactly if the one with null before all
data does not need the rows without a value. -/
theorem percentileIn_true_eq_iff :
    percentileIn true rows field margin = percentileOf rows field margin ↔
      ∀ datum, percentileIn true rows field margin = some datum →
        margin * rows.length ≤ 100 * (reachedBy rows field datum : ℚ) := by
  rw [← percentileIn_false]
  constructor
  · intro hsame datum hdatum
    rw [hsame, percentileIn_eq_some_iff, reachedIn_false] at hdatum
    exact hdatum.1.2
  · intro hreached
    cases hfirst : percentileIn true rows field margin with
    | none =>
      rw [percentileIn_eq_none_iff] at hfirst
      refine (percentileIn_eq_none_iff.mpr ?_).symm
      intro datum hdatum henough
      exact hfirst datum hdatum (enough_of_enough_last henough)
    | some datum =>
      have henough := hreached datum hfirst
      rw [← reachedIn_false] at henough
      obtain ⟨⟨hmem, -⟩, hleast⟩ := percentileIn_eq_some_iff.mp hfirst
      refine (percentileIn_eq_some_iff.mpr ⟨⟨hmem, henough⟩, ?_⟩).symm
      intro other hother henough
      exact hleast other hother (enough_of_enough_last henough)

/-- With null before all data, a percentile is there whenever it is with null after them, and is
not greater. -/
theorem exists_percentileIn_true_le {datum : δ}
    (h : percentileOf rows field margin = some datum) :
    ∃ first, percentileIn true rows field margin = some first ∧ first ≤ datum := by
  rw [← percentileIn_false, percentileIn_eq_some_iff] at h
  obtain ⟨⟨hmem, henough⟩, -⟩ := h
  have henough := enough_of_enough_last henough
  cases hfirst : percentileIn true rows field margin with
  | none => exact absurd henough (percentileIn_eq_none_iff.mp hfirst datum hmem)
  | some first =>
    obtain ⟨-, hleast⟩ := percentileIn_eq_some_iff.mp hfirst
    exact ⟨first, rfl, hleast datum hmem henough⟩

/-- Without null, its place does not matter. -/
theorem percentileIn_true_of_isSome (h : ∀ row ∈ rows, (Row.cell row field).isSome) :
    percentileIn true rows field margin = percentileOf rows field margin := by
  rw [percentileIn_true_eq_iff]
  intro datum hdatum
  obtain ⟨⟨-, henough⟩, -⟩ := percentileIn_eq_some_iff.mp hdatum
  have hreached : reachedIn true rows field datum = reachedBy rows field datum := by
    refine List.countP_congr fun row hrow => ?_
    obtain ⟨other, hcell⟩ := Option.isSome_iff_exists.mp (h row hrow)
    rw [hcell]
    rfl
  rwa [hreached] at henough

end

/-- In exact arithmetic and with helper columns that do not clash, one plan of a query with a
percentile has the same groups whatever order the rows are put in. With null after all data the
percentile of a group is the least datum that is not exceeded in enough rows. With null before
all data, the rows without a value count as well, so it is not greater. It is the same exactly if
it does not need those rows to be enough, as it is in a group without null. -/
theorem Query.percentiles_of_nullOrder {q : Query} {options : CompileOptions}
    {query : ParametrizedQuery} (h : q.compile options = .ok query) {db : Warehouse δ}
    (hexact : db.IsExact) (hhelpers : q.HelpersApart db options) (first last : RowOrder δ)
    (hfirst : first.nullsFirst .ascending = true) (hlast : last.nullsFirst .ascending = false)
    {i : Nat} {field : String} {margin : Binary64}
    (hmetric : q.request.metrics[i]? = some (.percentile field margin)) :
    ∃ select, q.plan options = .ok select ∧ select.write options.dialect = .ok query ∧
      List.Forall₂
        (fun cells group => cells.take q.request.groups.length = group.1 ∧
          cells[q.request.groups.length + i]? =
            some (percentileIn true group.2 field margin.toRat))
        (select.cells (db.withOrder first)) (q.groups db options) ∧
      List.Forall₂
        (fun cells group => cells.take q.request.groups.length = group.1 ∧
          cells[q.request.groups.length + i]? = some (percentileOf group.2 field margin.toRat))
        (select.cells (db.withOrder last)) (q.groups db options) ∧
      ∀ group ∈ q.groups db options,
        (∀ datum, percentileOf group.2 field margin.toRat = some datum →
          ∃ less, percentileIn true group.2 field margin.toRat = some less ∧ less ≤ datum) ∧
        (percentileIn true group.2 field margin.toRat = percentileOf group.2 field margin.toRat ↔
          ∀ datum, percentileIn true group.2 field margin.toRat = some datum →
            margin.toRat * group.2.length ≤ 100 * (reachedBy group.2 field datum : ℚ)) ∧
        ((∀ row ∈ group.2, (Row.cell row field).isSome) →
          percentileIn true group.2 field margin.toRat =
            percentileOf group.2 field margin.toRat) := by
  obtain ⟨hcheck, select, hplan, hwrite⟩ := compile_eq_ok_iff.mp h
  obtain ⟨p, hfits, rfl⟩ := plan_eq_ok_iff.mp hplan
  have hfields := Request.fields_eq_nil_of_metric (fault?_eq_none_of_check hcheck)
    (List.mem_of_getElem? hmetric)
  have hcells (order : RowOrder δ) := hfits.getElem?_cells_percentile (hexact.withOrder order)
    (hhelpers.withOrder order) hfields hmetric
  simp only [groups_withOrder, Warehouse.withOrder_nullsFirst] at hcells
  have hcellsFirst := hcells first
  have hcellsLast := hcells last
  simp only [hfirst] at hcellsFirst
  simp only [hlast, percentileIn_false] at hcellsLast
  refine ⟨_, hplan, hwrite, hcellsFirst, hcellsLast, ?_⟩
  intro group _
  exact ⟨fun datum => exists_percentileIn_true_le, percentileIn_true_eq_iff,
    percentileIn_true_of_isSome⟩

/-- Null comes first in ascending order. -/
def nullsFirstAscending : Direction → Bool
  | .ascending => true
  | .descending => false

/-- The median orders by site are the same in both orders, though there are orders without an
amount. -/
theorem percentiles_of_nullOrder_mediansBySite :
    ∃ query select, mediansBySite.compile .default = .ok query ∧
      mediansBySite.plan .default = .ok select ∧
      (select.cells (orders.withOrder (.inserting nullsFirstAscending))).map (List.take 2) =
        [[some (.text "a"), some (.number 10)], [none, some (.number 7)],
          [some (.text "b"), none]] ∧
      (select.cells (orders.withOrder (.inserting nullsFirstDescending))).map (List.take 2) =
        [[some (.text "a"), some (.number 10)], [none, some (.number 7)],
          [some (.text "b"), none]] := by
  obtain ⟨query, hquery⟩ := compile_mediansBySite
  obtain ⟨select, hplan, -, hfirst, hlast, -⟩ := Query.percentiles_of_nullOrder (i := 0) hquery
    (Warehouse.inMemory_isExact _) helpersApart_mediansBySite (.inserting nullsFirstAscending)
    (.inserting nullsFirstDescending) rfl rfl rfl
  refine ⟨query, select, hquery, hplan, ?_, ?_⟩
  · refine (map_take_succ_of_forall₂ (percentileIn true · "amount" (Binary64.ofNat 50).toRat)
      hfirst).trans ?_
    decide +kernel
  · refine (map_take_succ_of_forall₂ (percentileOf · "amount" (Binary64.ofNat 50).toRat)
      hlast).trans ?_
    decide +kernel

/-- The median of the amounts of all orders. -/
def median : Query :=
  totals [.percentile "amount" (.ofNat 50)]

/-- Two orders, and one without an amount. -/
def threeOrders : Warehouse StoredDatum :=
  .inMemory fun _ _ =>
    [[("amount", none)], [("amount", some (.number 10))], [("amount", some (.number 20))]]

theorem compile_median (dialect : Dialect) : ∃ query, median.compile ⟨dialect, 63⟩ = .ok query := by
  obtain ⟨after, halias, -⟩ := issueAlias_of_unasked (Aliases.unasked_new 63 "percentile_amount")
  have hmargin : Measure.isPercentage (.ofNat 50) = true := by decide +kernel
  have hmetric := Measure.ofMetric_percentile [] "amount" hmargin (by decide) halias
  have hnone : Measure.ofMetrics .empty [] [] after = .ok ([], after) := rfl
  exact compile_totals dialect (List.cons_ne_nil _ _) rfl (Measure.ofMetrics_cons hmetric hnone)

theorem helpersApart_median (dialect : Dialect) :
    median.HelpersApart threeOrders ⟨dialect, 63⟩ where
  nodup := by cases dialect <;> decide +kernel
  rows := by cases dialect <;> decide +kernel
  fields := by cases dialect <;> decide +kernel

/-- The median in any order of rows. -/
theorem cells_median {dialect : Dialect} {select : Select}
    (hplan : median.plan ⟨dialect, 63⟩ = .ok select) (order : RowOrder StoredDatum) :
    (select.cells (threeOrders.withOrder order)).map (List.take 1) =
      [[percentileIn (order.nullsFirst .ascending) (threeOrders.table "sales" "orders") "amount"
        (Binary64.ofNat 50).toRat]] := by
  obtain ⟨p, hfits, rfl⟩ := Query.plan_eq_ok_iff.mp hplan
  have hgroups : median.groups threeOrders ⟨dialect, 63⟩ =
      [([], threeOrders.table "sales" "orders")] := by
    cases dialect <;> rfl
  have hexact : threeOrders.IsExact := Warehouse.inMemory_isExact _
  have hcells := hfits.getElem?_cells_percentile (i := 0) (hexact.withOrder order)
    ((helpersApart_median dialect).withOrder order) rfl rfl
  rw [Query.groups_withOrder, hgroups] at hcells
  exact map_take_succ_of_forall₂ (percentileIn (order.nullsFirst .ascending) · "amount"
    (Binary64.ofNat 50).toRat) hcells

/-- The median of two amounts and a null is the less of them where null comes first, and the
greater one where null comes last. -/
theorem median_depends_on_nullOrder :
    ∃ query query' select select', median.compile ⟨.mysql, 63⟩ = .ok query ∧
      median.compile ⟨.postgres, 63⟩ = .ok query' ∧
      median.plan ⟨.mysql, 63⟩ = .ok select ∧ median.plan ⟨.postgres, 63⟩ = .ok select' ∧
      (select.cells (threeOrders.withOrder (.inserting nullsFirstAscending))).map (List.take 1) =
        [[some (.number 10)]] ∧
      (select'.cells (threeOrders.withOrder (.inserting nullsFirstDescending))).map (List.take 1) =
        [[some (.number 20)]] := by
  obtain ⟨query, hquery⟩ := compile_median .mysql
  obtain ⟨query', hquery'⟩ := compile_median .postgres
  obtain ⟨-, select, hplan, -⟩ := Query.compile_eq_ok_iff.mp hquery
  obtain ⟨-, select', hplan', -⟩ := Query.compile_eq_ok_iff.mp hquery'
  refine ⟨query, query', select, select', hquery, hquery', hplan, hplan', ?_, ?_⟩
  · rw [cells_median hplan]
    decide +kernel
  · rw [cells_median hplan']
    decide +kernel

end PagedQuery
