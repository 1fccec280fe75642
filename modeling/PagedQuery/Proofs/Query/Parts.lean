import PagedQuery.Proofs.Query.PlanParts
import PagedQuery.Proofs.Statement.Lexing

/-!
# Expressions of a plan

Whatever the request, what a plan writes besides its filters is built of columns
and literals in a few ways, and the numbers among the literals are finite. A
property of expressions that each of these ways keeps holds of dimensions,
measures, helper columns, join conditions and sort keys alike, whether it is
about bound values or about what is written.

* `Expr.Kept`: properties that are kept by the ways to build expressions;
* `Histogram.isFinite_of_points?`: the boundaries of a histogram are finite;
* `Dimension.ofGroups_forall₂`, `Measure.ofMetrics_forall₂`, `Measure.ofStats_forall₂`: what
  dimensions and measures are made of;
* `PlanParts.Fits.items`, `PlanParts.Fits.groupBy`, `PlanParts.Fits.orderBy_expr`: kept properties
  hold of the clauses of a plan.
-/

namespace PagedQuery

/-- A property of expressions that is kept by every way in which a plan builds expressions
outside of its filters. Functions and types are words of the dialects, and numbers are finite. -/
structure Expr.Kept (dialect : Dialect) (P : Expr → Prop) : Prop where
  column (ref : ColumnRef) : P (.column ref)
  wildcard (qualifier : Option String) : P (.wildcard qualifier)
  null : P .null
  int (i : Int) : P (.int i)
  string (s : String) : P (.string s)
  float {x : Binary64} : x.isFinite = true → P (.literal (.float x))
  sentinel : P dialect.timestampSentinel
  compare {left right : Expr} (op : Comparison) : P left → P right → P (.compare left op right)
  arithmetic {left right : Expr} (op : ArithmeticOp) :
    P left → P right → P (.arithmetic op left right)
  isNull {e : Expr} : P e → P (.isNull e)
  case {branches : List (Expr × Expr)} {otherwise : Option Expr} :
    (∀ branch ∈ branches, P branch.1 ∧ P branch.2) → (∀ e ∈ otherwise, P e) →
      P (.case branches otherwise)
  coalesce {es : List Expr} : (∀ e ∈ es, P e) → P (.coalesce es)
  all {es : List Expr} : (∀ e ∈ es, P e) → P (.all es)
  call {function : String} {args : List Expr} :
    isWord function.toList = true → (∀ e ∈ args, P e) → P (.call function args)
  cast {e : Expr} {typeName : String} : isWord typeName.toList = true → P e → P (.cast e typeName)
  aggregate {arg : Expr} (func : Aggregation) : P arg → P (.aggregate func (some arg))
  countRows : P (.aggregate .count none)
  window {partitionBy : List Expr} {orderBy : List (Expr × Direction)} (func : WindowFunction) :
    (∀ e ∈ partitionBy, P e) → (∀ key ∈ orderBy, P key.1) → P (.window func partitionBy orderBy)

/-- The boundaries that a dimension writes are finite. -/
def DimensionShape.IsFinite : DimensionShape → Prop
  | .histogram points => ∀ p ∈ points, p.isFinite = true
  | _ => True

/-- The margin that a measure writes is finite. -/
def MeasureShape.IsFinite : MeasureShape → Prop
  | .percentile _ margin => margin.isFinite = true
  | _ => True

/-- An aggregate without an argument can be written only if it counts rows. -/
def MeasureShape.IsWritable : MeasureShape → Prop
  | .aggregate func none => func = .count
  | _ => True

/-! ## Derived tables and joined sub-selects -/

/-- The statement of the derived table that ranks the rows. -/
def rankedSelect (dialect : Dialect) (base : Relation) (filter : Option Expr)
    (dimensions : List Dimension) (windows : List PercentileWindow) : Select :=
  let partition := dimensions.map (Dimension.expr dialect base.qualifier)
  { Select.of base with
    items := { expr := .wildcard base.qualifier, aliasName := none } ::
      windows.flatMap (PercentileWindow.selectItems base.qualifier partition)
    filter }

/-- The statement that computes the greatest time of each group. -/
def latestSelect (dialect : Dialect) (timeField : String) (source : Relation)
    (filter : Option Expr) (dimensions : List Dimension) : Select :=
  let keys := dimensions.map (Dimension.expr dialect source.qualifier)
  { Select.of source with
    items :=
      (keys.zipIdx.map fun (key, i) => { expr := key, aliasName := some (groupColumn i) }) ++
        [{ expr := .aggregate .max (some (columnOf source.qualifier timeField))
           aliasName := some maxTimeColumn }]
    groupBy := keys
    filter }

theorem lastValueJoin_relation (dialect : Dialect) (index : Nat) (timeField : String)
    (source : Relation) (filter : Option Expr) (dimensions : List Dimension)
    (outer : Option String) :
    (lastValueJoin dialect index timeField source filter dimensions outer).relation =
      .derived (latestSelect dialect timeField source filter dimensions) (lastValueAlias index) :=
  rfl

/-! ## What is kept -/

namespace Expr.Kept

variable {dialect : Dialect} {P : Expr → Prop} {e : Expr} {dimensions : List Dimension}
  (kept : Expr.Kept dialect P)
include kept

/-- Calls with one argument. -/
theorem call₁ {function : String} (hfunction : isWord function.toList = true) (h : P e) :
    P (.call function [e]) :=
  kept.call hfunction (by simpa using h)

/-- Calls with two arguments. -/
theorem call₂ {function : String} {other : Expr} (hfunction : isWord function.toList = true)
    (h : P e) (hother : P other) : P (.call function [e, other]) :=
  kept.call hfunction (by simpa using ⟨h, hother⟩)

theorem columnOf (qualifier : Option String) (name : String) :
    P (PagedQuery.columnOf qualifier name) :=
  kept.column _

/-- A choice between two values. -/
theorem case₁ {condition value otherwise : Expr} (hcondition : P condition) (hvalue : P value)
    (hotherwise : P otherwise) : P (.case [(condition, value)] (some otherwise)) := by
  refine kept.case ?_ ?_
  · intro branch hbranch
    rw [List.mem_singleton] at hbranch
    subst hbranch
    exact ⟨hcondition, hvalue⟩
  · intro e he
    cases he
    exact hotherwise

theorem whenElseNull {condition value : Expr} (hcondition : P condition) (hvalue : P value) :
    P (.whenElseNull condition value) :=
  kept.case₁ hcondition hvalue kept.null

/-! ### Functions of the dialects -/

theorem epochSeconds (h : P e) : P (dialect.epochSeconds e) := by
  cases dialect <;> exact kept.call₁ (by decide) h

theorem epochMillis (h : P e) : P (dialect.epochMillis e) := by
  have hseconds := kept.arithmetic .divide h (kept.int 1000)
  cases dialect with
  | postgres => exact kept.call₁ (by decide) hseconds
  | mysql => exact kept.call₁ (by decide) hseconds
  | clickhouse => exact kept.call₁ (by decide) (kept.call₂ (by decide) h (kept.int 1000))

theorem reformatted (h : P e) (format : String) {typeName : String}
    (htype : isWord typeName.toList = true) : P (Dialect.reformatted e format typeName) :=
  kept.cast htype (kept.call₂ (by decide) h (kept.string format))

theorem truncateByFormat (h : P e) (granularity : Granularity) :
    P (Dialect.truncateByFormat e granularity) := by
  cases granularity with
  | day => exact kept.call₁ (by decide) h
  | week => exact kept.call₂ (by decide) (kept.call₁ (by decide) h) (kept.call₁ (by decide) h)
  | quarter =>
    have hyear : P (.call "YEAR" [e]) := kept.call₁ (by decide) h
    have hquarter : P (.call "QUARTER" [e]) := kept.call₁ (by decide) h
    have hquarters := kept.arithmetic .subtract hquarter (kept.int 1)
    have hmonths := kept.arithmetic .multiply hquarters (kept.int 3)
    have hmonth := kept.arithmetic .add hmonths (kept.int 1)
    refine kept.call₂ (by decide) (kept.call (by decide) ?_) (kept.string _)
    simpa using ⟨hyear, kept.string _, hmonth, kept.string _⟩
  | _ => exact kept.reformatted h _ (by decide)

theorem truncate (h : P e) (granularity : Granularity) : P (dialect.truncate e granularity) := by
  cases dialect with
  | postgres => exact kept.call₂ (by decide) (kept.string _) h
  | mysql => exact kept.truncateByFormat h granularity
  | clickhouse =>
    have hfunction : isWord (Dialect.truncateFunction granularity).toList = true := by
      cases granularity <;> decide
    exact kept.call₁ hfunction h

/-! ### Dimensions and measures -/

theorem histogramCase (h : P e) {points : List Binary64}
    (hpoints : ∀ p ∈ points, p.isFinite = true) : P (Dimension.histogramCase e points) := by
  have hlabels : ∀ e ∈ (Dimension.bucketLabels "" points).map Expr.string, P e := by
    intro e he
    obtain ⟨label, -, rfl⟩ := List.mem_map.mp he
    exact kept.string label
  refine kept.case ?_ fun e he => hlabels e (List.mem_of_getLast? he)
  intro branch hbranch
  rcases List.mem_cons.mp hbranch with rfl | hbranch
  · exact ⟨kept.isNull h, kept.null⟩
  · obtain ⟨⟨point, label⟩, hmem, rfl⟩ := List.mem_map.mp hbranch
    obtain ⟨hpoint, hlabel⟩ := List.of_mem_zip hmem
    exact ⟨kept.compare _ h (kept.float (hpoints point hpoint)), hlabels label hlabel⟩

theorem dimension {d : Dimension} (hd : d.shape.IsFinite) (qualifier : Option String) :
    P (d.expr dialect qualifier) := by
  have hcolumn := kept.columnOf qualifier d.field
  unfold Dimension.expr
  split
  · exact hcolumn
  · exact hcolumn
  · exact kept.truncate hcolumn _
  · exact kept.truncate (kept.epochSeconds hcolumn) _
  · exact kept.truncate (kept.epochMillis hcolumn) _
  · rename_i points hshape
    rw [hshape] at hd
    exact kept.histogramCase hcolumn hd

/-- Expressions of the caller are as they come. -/
theorem measure {m : Measure} (hwritable : m.shape.IsWritable) (hfinite : m.shape.IsFinite)
    (hcalc : ∀ expression, m.shape = .calc expression → P (.raw expression))
    (qualifier : Option String) : P (m.expr qualifier) := by
  obtain ⟨shape, aliasName⟩ := m
  cases shape with
  | aggregate func field =>
    cases field with
    | none =>
      cases (hwritable : func = .count)
      exact kept.countRows
    | some field => exact kept.aggregate func (kept.columnOf qualifier field)
  | lastValue field timeField join =>
    have hlatest := kept.compare .eq (kept.columnOf qualifier timeField)
      (kept.columnOf (some (lastValueAlias join)) maxTimeColumn)
    exact kept.aggregate .max (kept.whenElseNull hlatest (kept.columnOf qualifier field))
  | percentile window margin =>
    have hshare := kept.arithmetic .divide (kept.columnOf qualifier window.rankColumn)
      (kept.columnOf qualifier window.countColumn)
    have hpercent := kept.arithmetic .multiply hshare (kept.int 100)
    have hmargin := kept.float hfinite
    have hreached := kept.compare .ge hpercent hmargin
    exact kept.aggregate .min (kept.whenElseNull hreached (kept.columnOf qualifier window.field))
  | nullCount field =>
    have hnull := kept.isNull (kept.columnOf qualifier field)
    exact kept.aggregate .sum (kept.case₁ hnull (kept.int 1) (kept.int 0))
  | «calc» expression => exact hcalc expression rfl

theorem dimensionKeys (hdimensions : ∀ d ∈ dimensions, d.shape.IsFinite)
    (qualifier : Option String) : ∀ e ∈ dimensions.map (Dimension.expr dialect qualifier), P e := by
  intro e he
  obtain ⟨d, hd, rfl⟩ := List.mem_map.mp he
  exact kept.dimension (hdimensions d hd) qualifier

/-! ### Derived tables, joins and sort keys -/

theorem sentinelFor (fieldType : FieldType) : P (PagedQuery.sentinelFor dialect fieldType) := by
  cases fieldType with
  | integer => exact kept.int _
  | double => exact kept.int _
  | date => exact kept.sentinel
  | string => exact kept.string _
  | unknown => exact kept.string _

theorem sameGroup {d : Dimension} (hd : d.shape.IsFinite)
    (outer : Option String) (joined : String) (index : Nat) :
    P (PagedQuery.sameGroup dialect outer joined index d) := by
  have hsentinel := kept.sentinelFor d.outputType
  refine kept.compare _ (kept.coalesce ?_) (kept.coalesce ?_)
  · simpa using ⟨kept.dimension hd outer, hsentinel⟩
  · simpa using ⟨kept.columnOf _ _, hsentinel⟩

theorem lastValueCondition (hdimensions : ∀ d ∈ dimensions, d.shape.IsFinite) (index : Nat)
    (timeField : String) (source : Relation) (filter : Option Expr) (outer : Option String) :
    P (lastValueJoin dialect index timeField source filter dimensions outer).condition := by
  unfold lastValueJoin
  dsimp only
  split
  · exact kept.compare _ (kept.int 1) (kept.int 1)
  · refine kept.all ?_
    intro e he
    obtain ⟨⟨d, i⟩, hd, rfl⟩ := List.mem_map.mp he
    exact kept.sameGroup (hdimensions d (List.fst_mem_of_mem_zipIdx hd)) _ _ _

theorem rankedItems (hdimensions : ∀ d ∈ dimensions, d.shape.IsFinite) (base : Relation)
    (filter : Option Expr) (windows : List PercentileWindow) :
    ∀ item ∈ (rankedSelect dialect base filter dimensions windows).items, P item.expr := by
  have hpartition := kept.dimensionKeys hdimensions base.qualifier
  intro item hitem
  rcases List.mem_cons.mp hitem with rfl | hitem
  · exact kept.wildcard _
  · obtain ⟨window, -, hitem⟩ := List.mem_flatMap.mp hitem
    rcases List.mem_cons.mp hitem with rfl | hitem
    · refine kept.window _ hpartition ?_
      intro key hkey
      rw [List.mem_singleton] at hkey
      subst hkey
      exact kept.columnOf _ _
    · rw [List.mem_singleton] at hitem
      subst hitem
      exact kept.window _ hpartition fun key hkey => absurd hkey List.not_mem_nil

theorem latestItems (hdimensions : ∀ d ∈ dimensions, d.shape.IsFinite) (timeField : String)
    (source : Relation) (filter : Option Expr) :
    ∀ item ∈ (latestSelect dialect timeField source filter dimensions).items, P item.expr := by
  have hkeys := kept.dimensionKeys hdimensions source.qualifier
  intro item hitem
  rcases List.mem_append.mp hitem with hitem | hitem
  · obtain ⟨⟨key, i⟩, hkey, rfl⟩ := List.mem_map.mp hitem
    exact hkeys key (List.fst_mem_of_mem_zipIdx hkey)
  · rw [List.mem_singleton] at hitem
    subst hitem
    exact kept.aggregate .max (kept.columnOf _ _)

theorem sortKey {measures : List Measure} {outer : Option String} {sort : SortClause}
    {key : Expr × Direction} (h : Query.sortKey dimensions measures outer sort = .ok key) :
    P key.1 := by
  cases sort with
  | raw field direction =>
    cases h
    exact kept.columnOf _ _
  | agg target direction =>
    simp only [Query.sortKey] at h
    split at h
    · cases h
      exact kept.column _
    · cases h

end Expr.Kept

/-! ## Boundaries of histograms -/

/-- What lies between finite numbers is finite. -/
theorem Binary64.isFinite_of_lt {x y z : Binary64} (hx : x.isFinite = true)
    (hz : z.isFinite = true) (hxy : lt x y = true) (hyz : lt y z = true) :
    y.isFinite = true := by
  cases y with
  | finite => rfl
  | nan => cases x <;> cases hxy
  | infinite negative =>
    -- an infinity between them would have both signs
    cases x <;> cases hx
    cases z <;> cases hz
    simp only [lt] at hxy hyz
    rw [hyz] at hxy
    cases hxy

namespace Histogram

theorem isFinite_of_increasesBelow {previous finish : Binary64} {points : List Binary64}
    (hprevious : previous.isFinite = true) (hfinish : finish.isFinite = true)
    (h : increasesBelow Arithmetic.binary64 previous finish points = true) :
    ∀ p ∈ points, p.isFinite = true := by
  induction points generalizing previous with
  | nil => exact fun p hp => absurd hp List.not_mem_nil
  | cons first rest ih =>
    simp only [increasesBelow, Bool.and_eq_true] at h
    obtain ⟨⟨habove, hbelow⟩, hrest⟩ := h
    have hfirst := Binary64.isFinite_of_lt hprevious hfinish habove hbelow
    exact List.forall_mem_cons.mpr ⟨hfirst, ih hfirst hrest⟩

theorem isFinite_of_bucketCount? {start finish size : Binary64} {count : Nat}
    (h : bucketCount? Arithmetic.binary64 start finish size = some count) :
    start.isFinite = true ∧ finish.isFinite = true := by
  unfold bucketCount? at h
  split at h
  · cases h
  · rename_i hfinite
    simp only [Bool.not_eq_true', Bool.not_eq_false, Bool.and_eq_true] at hfinite
    exact hfinite.1

/-- The boundaries of a histogram are finite. -/
theorem isFinite_of_points? {start finish size : Binary64} {points : List Binary64}
    (h : points? Arithmetic.binary64 start finish size = some points) :
    ∀ p ∈ points, p.isFinite = true := by
  unfold points? at h
  obtain ⟨count, hcount, h⟩ := Option.bind_eq_some_iff.mp h
  obtain ⟨hstart, hfinish⟩ := isFinite_of_bucketCount? hcount
  dsimp only at h
  split at h
  · rename_i hincreases
    cases h
    exact isFinite_of_increasesBelow hstart hfinish hincreases
  · cases h

end Histogram

/-! ## What dimensions and measures are made of -/

namespace Dimension

theorem isFinite_of_ofGroup {catalog : Catalog} {sorted : Bool} {group : Group} {d : Dimension}
    {aliases aliases' : Aliases} (h : ofGroup catalog sorted group aliases = .ok (d, aliases')) :
    d.shape.IsFinite := by
  unfold ofGroup at h
  split at h
  · cases h
  cases group with
  | «attribute» field =>
    dsimp only [ofAttribute] at h
    split at h
    · obtain ⟨⟨aliasName, aliases₁⟩, -, h⟩ := bind_eq_ok_iff.mp h
      cases h
      trivial
    · cases h
      trivial
  | time field granularity =>
    obtain ⟨source, -, h⟩ := bind_eq_ok_iff.mp h
    split at h
    · cases h
    · obtain ⟨⟨aliasName, aliases₁⟩, -, h⟩ := bind_eq_ok_iff.mp h
      cases h
      trivial
  | histogram field start finish bucketSize =>
    simp only [ofHistogram] at h
    split at h
    · cases h
    split at h
    · cases h
    split at h
    · cases h
    · rename_i points hpoints
      obtain ⟨⟨aliasName, aliases₁⟩, -, h⟩ := bind_eq_ok_iff.mp h
      cases h
      exact Histogram.isFinite_of_points? hpoints

/-- Each dimension is that of its group. -/
theorem ofGroups_forall₂ {catalog : Catalog} {sorted : List Nat} {groups : List Group}
    {dimensions : List Dimension} {index : Nat} {aliases aliases' : Aliases}
    (h : ofGroups catalog sorted index groups aliases = .ok (dimensions, aliases')) :
    List.Forall₂
      (fun group d => ∃ isSorted before after,
        ofGroup catalog isSorted group before = .ok (d, after)) groups dimensions := by
  induction groups generalizing dimensions index aliases with
  | nil =>
    cases h
    exact .nil
  | cons group rest ih =>
    obtain ⟨⟨first, aliases₁⟩, hfirst, h⟩ := bind_eq_ok_iff.mp h
    obtain ⟨⟨others, aliases₂⟩, hothers, h⟩ := bind_eq_ok_iff.mp h
    cases h
    exact .cons ⟨_, _, _, hfirst⟩ (ih hothers)

theorem isFinite_of_ofGroups {catalog : Catalog} {sorted : List Nat} {groups : List Group}
    {dimensions : List Dimension} {index : Nat} {aliases aliases' : Aliases}
    (h : ofGroups catalog sorted index groups aliases = .ok (dimensions, aliases')) :
    ∀ d ∈ dimensions, d.shape.IsFinite := by
  intro d hd
  obtain ⟨group, -, _, _, _, hgroup⟩ := exists_mem_of_forall₂ (ofGroups_forall₂ h) hd
  exact isFinite_of_ofGroup hgroup

end Dimension

namespace Measure

/-- Metrics make shapes that can be written, with finite margins. Expressions are taken only
from the metrics that are expressions. -/
theorem shapeOf_eq_ok {catalog : Catalog} {times : List String} {aliases : Aliases}
    {metric : Metric} {shape : MeasureShape} {name : String}
    (h : shapeOf catalog times aliases metric = .ok (shape, name)) :
    shape.IsWritable ∧ shape.IsFinite ∧
      ∀ expression, shape = .calc expression → ∃ given, metric = .calc expression given := by
  cases metric with
  | sum field =>
    obtain ⟨-, -, h⟩ := bind_eq_ok_iff.mp h
    cases h
    exact ⟨trivial, trivial, nofun⟩
  | avg field =>
    obtain ⟨-, -, h⟩ := bind_eq_ok_iff.mp h
    cases h
    exact ⟨trivial, trivial, nofun⟩
  | count field =>
    cases field with
    | none =>
      cases h
      exact ⟨rfl, trivial, nofun⟩
    | some field =>
      cases h
      exact ⟨trivial, trivial, nofun⟩
  | percentile field margin =>
    rw [shapeOf] at h
    split at h
    · rename_i hmargin
      cases h
      simp only [isPercentage, Bool.and_eq_true] at hmargin
      exact ⟨trivial, hmargin.1.1, nofun⟩
    · cases h
  | «calc» expression given =>
    rw [shapeOf] at h
    split at h
    · cases h
    · cases h
      refine ⟨trivial, trivial, ?_⟩
      intro other hother
      cases hother
      exact ⟨given, rfl⟩
  | _ =>
    cases h
    exact ⟨trivial, trivial, nofun⟩

/-- Each measure has the shape of its metric. -/
theorem ofMetrics_forall₂ {catalog : Catalog} {times : List String} {metrics : List Metric}
    {measures : List Measure} {aliases aliases' : Aliases}
    (h : ofMetrics catalog times metrics aliases = .ok (measures, aliases')) :
    List.Forall₂
      (fun metric m => ∃ before name, shapeOf catalog times before metric = .ok (m.shape, name))
      metrics measures := by
  induction metrics generalizing measures aliases with
  | nil =>
    cases h
    exact .nil
  | cons metric rest ih =>
    obtain ⟨⟨first, aliases₁⟩, hfirst, h⟩ := bind_eq_ok_iff.mp h
    obtain ⟨⟨others, aliases₂⟩, hothers, h⟩ := bind_eq_ok_iff.mp h
    cases h
    refine .cons ?_ (ih hothers)
    unfold ofMetric at hfirst
    split at hfirst
    · cases hfirst
    · obtain ⟨⟨shape, name⟩, hshape, hfirst⟩ := bind_eq_ok_iff.mp hfirst
      obtain ⟨⟨aliasName, aliases₃⟩, -, hfirst⟩ := bind_eq_ok_iff.mp hfirst
      cases hfirst
      exact ⟨_, _, hshape⟩

/-- Each measure has the shape of its statistic. -/
theorem ofStats_forall₂ {catalog : Catalog} {stats : List Stat} {measures : List Measure}
    {aliases aliases' : Aliases} (h : ofStats catalog stats aliases = .ok (measures, aliases')) :
    List.Forall₂ (fun stat m => m.shape = statShape stat.field stat.kind) stats measures := by
  induction stats generalizing measures aliases with
  | nil =>
    cases h
    exact .nil
  | cons stat rest ih =>
    obtain ⟨⟨first, aliases₁⟩, hfirst, h⟩ := bind_eq_ok_iff.mp h
    obtain ⟨⟨others, aliases₂⟩, hothers, h⟩ := bind_eq_ok_iff.mp h
    cases h
    refine .cons ?_ (ih hothers)
    unfold ofStat at hfirst
    split at hfirst
    · cases hfirst
    · obtain ⟨⟨aliasName, aliases₃⟩, -, hfirst⟩ := bind_eq_ok_iff.mp hfirst
      cases hfirst
      rfl

end Measure

/-! ## Clauses of a plan -/

section

variable {dialect : Dialect} {P : Expr → Prop} {catalog : Catalog} {measures : List Measure}
  {aliases aliases' : Aliases}

/-- Expressions of the caller are written as they come. -/
theorem Expr.Kept.metrics (kept : Expr.Kept dialect P) {times : List String}
    {metrics : List Metric}
    (hraw : ∀ expression given, .calc expression given ∈ metrics → P (.raw expression))
    (h : Measure.ofMetrics catalog times metrics aliases = .ok (measures, aliases'))
    (qualifier : Option String) : ∀ m ∈ measures, P (m.expr qualifier) := by
  intro m hm
  obtain ⟨metric, hmetric, _, _, hshape⟩ := exists_mem_of_forall₂ (Measure.ofMetrics_forall₂ h) hm
  obtain ⟨hwritable, hfinite, hcalc⟩ := Measure.shapeOf_eq_ok hshape
  refine kept.measure hwritable hfinite ?_ qualifier
  intro expression hexpression
  obtain ⟨given, rfl⟩ := hcalc expression hexpression
  exact hraw expression given hmetric

theorem Expr.Kept.stats (kept : Expr.Kept dialect P) {stats : List Stat}
    (h : Measure.ofStats catalog stats aliases = .ok (measures, aliases'))
    (qualifier : Option String) : ∀ m ∈ measures, P (m.expr qualifier) := by
  intro m hm
  obtain ⟨stat, -, hshape⟩ := exists_mem_of_forall₂ (Measure.ofStats_forall₂ h) hm
  refine kept.measure ?_ ?_ ?_ qualifier
  · rw [hshape]
    cases stat.kind <;> trivial
  · rw [hshape]
    cases stat.kind <;> trivial
  · intro expression hexpression
    rw [hshape] at hexpression
    cases hkind : stat.kind <;> rw [hkind] at hexpression <;> cases hexpression

end

namespace PlanParts.Fits

variable {p : PlanParts} {q : Query} {options : CompileOptions} {P : Expr → Prop}
  (h : p.Fits q options)
include h

theorem dimensions_isFinite : ∀ d ∈ p.dimensions, d.shape.IsFinite := by
  obtain ⟨_, _, _, hdimensions, -, -⟩ := h.aliased
  exact Dimension.isFinite_of_ofGroups hdimensions

variable (kept : Expr.Kept options.dialect P)
include kept

theorem items
    (hraw : ∀ expression given, .calc expression given ∈ q.request.metrics → P (.raw expression)) :
    ∀ item ∈ (p.select q options).items, P item.expr := by
  obtain ⟨_, _, _, -, hmetrics, hstats⟩ := h.aliased
  intro item hitem
  simp only [select, Query.selectItems, List.mem_append, List.mem_map] at hitem
  rcases hitem with ((⟨field, -, rfl⟩ | ⟨d, hd, rfl⟩) | ⟨m, hm, rfl⟩) | ⟨m, hm, rfl⟩
  · exact kept.columnOf _ _
  · exact kept.dimension (h.dimensions_isFinite d hd) _
  · exact kept.metrics hraw hmetrics _ m hm
  · exact kept.stats hstats _ m hm

theorem groupBy : ∀ e ∈ (p.select q options).groupBy, P e :=
  kept.dimensionKeys h.dimensions_isFinite _

theorem orderBy_expr : ∀ key ∈ (p.select q options).orderBy, P key.1 :=
  forall_mem_of_mapM_eq_ok (fun _ _ hkey => kept.sortKey hkey) h.orderBy

end PlanParts.Fits

end PagedQuery
