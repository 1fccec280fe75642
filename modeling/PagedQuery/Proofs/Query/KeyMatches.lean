import PagedQuery.Proofs.Query.LastValues

/-!
# Keys that match

A row of the outer query is joined to the rows of a sub-select that have its
key. Null has to match null, so a datum of the type stands in for it on both
sides, and that datum matches null as well. Nothing else does, and labels of
buckets are never that datum.

* `KeyCells.Match`, `Query.keyCells`: cells of keys, and when they match;
* `Dimension.key_ne_sentinel_of_histogram`: keys that are not taken for null;
* `Query.holds_join_iff_of_compile`: the conditions of the joins of a compiled query.
-/

namespace PagedQuery

variable {δ : Type} [LinearOrder δ] {db : Warehouse δ}

/-! ## Cells of keys -/

/-- The cells of two keys in a dimension of a type: of a row of the outer query, and of a row that
may be joined to it. -/
structure KeyCells (δ : Type) where
  fieldType : FieldType
  outer : Option δ
  joined : Option δ

namespace KeyCells

/-- The cells are the same, or one of them is null and the other one the datum that stands for
null. -/
def Match (db : Warehouse δ) (dialect : Dialect) (cells : KeyCells δ) : Prop :=
  cells.outer = cells.joined ∨
    (cells.outer = none ∧ cells.joined = some (db.sentinel dialect cells.fieldType)) ∨
    (cells.outer = some (db.sentinel dialect cells.fieldType) ∧ cells.joined = none)

/-- Neither cell is the datum that stands for null. -/
def AvoidSentinel (db : Warehouse δ) (dialect : Dialect) (cells : KeyCells δ) : Prop :=
  cells.outer ≠ some (db.sentinel dialect cells.fieldType) ∧
    cells.joined ≠ some (db.sentinel dialect cells.fieldType)

theorem match_iff_eq {dialect : Dialect} {cells : KeyCells δ} (h : cells.AvoidSentinel db dialect) :
    cells.Match db dialect ↔ cells.outer = cells.joined := by
  constructor
  · rintro (hsame | ⟨-, hsentinel⟩ | ⟨hsentinel, -⟩)
    · exact hsame
    · exact absurd hsentinel h.2
    · exact absurd hsentinel h.1
  · exact Or.inl

end KeyCells

/-- The cells that a join compares, for each dimension. -/
def Query.keyCells (db : Warehouse δ) (q : Query) (options : CompileOptions)
    (outer joined : Option String) (scope : Scope δ) : List (KeyCells δ) :=
  (q.dimensions options).zipIdx.map fun (d, i) =>
    ⟨d.outputType, d.key db options.dialect (scope outer),
      Row.cell (scope joined) (groupColumn i)⟩

/-! ## Buckets -/

theorem Expr.evalBranches_cases (db : Warehouse δ) (env : Env δ) (otherwise : Option δ)
    (branches : List (Expr × Expr)) :
    evalBranches db env otherwise branches = otherwise ∨
      ∃ branch ∈ branches, evalBranches db env otherwise branches = branch.2.eval db env := by
  induction branches with
  | nil => exact .inl rfl
  | cons first rest ih =>
    obtain ⟨condition, value⟩ := first
    rw [evalBranches]
    split
    · exact .inr ⟨_, List.mem_cons_self, rfl⟩
    · rcases ih with hotherwise | ⟨branch, hbranch, hvalue⟩
      · exact .inl hotherwise
      · exact .inr ⟨branch, List.mem_cons_of_mem _ hbranch, hvalue⟩

namespace Dimension

theorem bucketLabels_ne_nil (lower : String) (points : List Binary64) :
    bucketLabels lower points ≠ [] := by
  cases points <;> exact List.cons_ne_nil _ _

/-- Labels have the mark between the ends of a bucket. -/
theorem mem_toList_of_mem_bucketLabels {lower label : String} {points : List Binary64}
    (h : label ∈ bucketLabels lower points) : ';' ∈ label.toList := by
  induction points generalizing lower with
  | nil =>
    obtain rfl := List.mem_singleton.mp h
    simp
  | cons point rest ih =>
    rcases List.mem_cons.mp h with rfl | hrest
    · simp
    · exact ih hrest

/-- A bucket is null or a label. -/
theorem eval_histogramCase_cases (db : Warehouse δ) (env : Env δ) (value : Expr)
    (points : List Binary64) :
    (histogramCase value points).eval db env = none ∨
      ∃ label ∈ bucketLabels "" points,
        (histogramCase value points).eval db env = some (db.text label) := by
  have hlabel (e : Expr) (he : e ∈ (bucketLabels "" points).map Expr.string) :
      ∃ label ∈ bucketLabels "" points, e.eval db env = some (db.text label) := by
    obtain ⟨label, hmem, rfl⟩ := List.mem_map.mp he
    exact ⟨label, hmem, rfl⟩
  have hne : (bucketLabels "" points).map Expr.string ≠ [] :=
    mt List.map_eq_nil_iff.mp (bucketLabels_ne_nil "" points)
  have hlast := List.getLast?_eq_some_getLast hne
  unfold histogramCase
  rw [Expr.eval, hlast]
  rcases Expr.evalBranches_cases db env (Expr.evalOption db env (some (List.getLast _ hne))) _
    with hvalue | ⟨branch, hbranch, hvalue⟩
  · rw [hvalue]
    exact .inr (hlabel _ (List.getLast_mem hne))
  · rw [hvalue]
    rcases List.mem_cons.mp hbranch with rfl | hbranch
    · exact .inl rfl
    · obtain ⟨⟨point, label⟩, hmem, rfl⟩ := List.mem_map.mp hbranch
      exact .inr (hlabel _ (List.of_mem_zip hmem).2)

theorem outputType_of_ofGroup {catalog : Catalog} {sorted : Bool} {group : Group} {d : Dimension}
    {before after : Aliases} (h : ofGroup catalog sorted group before = .ok (d, after))
    {points : List Binary64} (hshape : d.shape = .histogram points) : d.outputType = .string := by
  obtain ⟨-, hfield, -, hattribute⟩ := issues_of_ofGroup h
  unfold ofGroup at h
  split at h
  · cases h
  cases group with
  | «attribute» field =>
    rw [hattribute (congrArg Group.attribute hfield.symm)] at hshape
    cases hshape
  | time field granularity =>
    obtain ⟨source, -, h⟩ := bind_eq_ok_iff.mp h
    split at h
    · cases h
    · obtain ⟨⟨aliasName, aliases⟩, -, h⟩ := bind_eq_ok_iff.mp h
      cases h
      cases hshape
  | histogram field start finish bucketSize =>
    simp only [ofHistogram] at h
    split at h
    · cases h
    split at h
    · cases h
    split at h
    · cases h
    · obtain ⟨⟨aliasName, aliases⟩, -, h⟩ := bind_eq_ok_iff.mp h
      cases h
      rfl

/-- Labels of buckets are not taken for null, if the database tells texts apart. -/
theorem key_ne_sentinel_of_histogram (htext : Function.Injective db.text) {dialect : Dialect}
    {d : Dimension} {points : List Binary64} (hshape : d.shape = .histogram points)
    (htype : d.outputType = .string) (row : Row δ) :
    d.key db dialect row ≠ some (db.sentinel dialect d.outputType) := by
  have hkey : d.key db dialect row = (histogramCase (columnOf none d.field) points).eval db
      (.ofRow (Scope.single none row)) := by
    rw [key, Expr.value, expr, hshape]
  rw [hkey, htype]
  rcases eval_histogramCase_cases db _ _ points with hvalue | ⟨label, hlabel, hvalue⟩
  · rw [hvalue]
    exact Option.some_ne_none _ |>.symm
  · rw [hvalue]
    intro hsame
    have hmark := mem_toList_of_mem_bucketLabels hlabel
    rw [htext (Option.some.inj hsame)] at hmark
    exact absurd hmark (by decide)

end Dimension

/-! ## Joins of a query -/

namespace PlanParts.Fits

variable {p : PlanParts} {q : Query} {options : CompileOptions} (h : p.Fits q options)
include h

/-- The condition of a join holds if the keys match in each dimension. -/
theorem holds_join_iff {join : Join} (hjoin : join ∈ p.joins) (scope : Scope δ) :
    db.holds join.condition scope = true ↔
      ∀ cells ∈ q.keyCells db options (p.outer q options) join.relation.qualifier scope,
        cells.Match db options.dialect := by
  obtain ⟨k, timeField, filter, -, -, rfl⟩ := h.join_cases hjoin
  rw [holds_lastValueJoin_iff_forall, Query.keyCells, ← h.dimensions_unnamed, List.forall_mem_map,
    List.zipIdx_map, List.forall_mem_map]
  simp only [Prod.forall, List.mk_mem_zipIdx_iff_getElem?]
  rw [forall_comm]
  refine forall_congr' fun d => forall_congr' fun i => imp_congr_right fun _ => ?_
  exact getD_eq_getD_iff

/-- There is one join for each time field. -/
theorem length_joins : p.joins.length = q.times.length := by
  obtain ⟨filter, -, hjoins⟩ := Query.lastValueJoins_eq_ok h.joins
  rw [hjoins, List.length_map, List.length_zipIdx]

theorem outputType_of_histogram {d : Dimension} (hd : d ∈ q.dimensions options)
    {points : List Binary64} (hshape : d.shape = .histogram points) : d.outputType = .string := by
  rw [← h.dimensions_unnamed] at hd
  obtain ⟨named, hnamed, rfl⟩ := List.mem_map.mp hd
  obtain ⟨_, _, _, hdimensions, -, -⟩ := h.aliased
  obtain ⟨_, -, _, _, _, hofGroup⟩ :=
    exists_mem_of_forall₂ (Dimension.ofGroups_forall₂ hdimensions) hnamed
  have htype : named.outputType = .string := Dimension.outputType_of_ofGroup hofGroup hshape
  exact htype

end PlanParts.Fits

namespace Query

/-- A row of the outer query and a row of a joined sub-select satisfy the condition of the join
exactly if their keys match in each dimension: the cells are the same, null being the same as
null, or one of them is null and the other one the datum that stands for null among the data of
the type. So the condition of keys without that datum holds exactly if they are the same. Buckets
of a histogram are never that datum. -/
theorem holds_join_iff_of_compile (db : Warehouse δ) {q : Query} {options : CompileOptions}
    {query : ParametrizedQuery} (h : q.compile options = .ok query) :
    ∃ select, q.plan options = .ok select ∧ select.write options.dialect = .ok query ∧
      (∀ join ∈ select.joins, select.source.qualifier ≠ join.relation.qualifier ∧
        ∀ scope : Scope δ,
          (db.holds join.condition scope = true ↔
            ∀ cells ∈ q.keyCells db options select.source.qualifier join.relation.qualifier scope,
              cells.Match db options.dialect) ∧
          ((∀ cells ∈ q.keyCells db options select.source.qualifier join.relation.qualifier scope,
              cells.AvoidSentinel db options.dialect) →
            (db.holds join.condition scope = true ↔
              ∀ cells ∈ q.keyCells db options select.source.qualifier join.relation.qualifier
                scope, cells.outer = cells.joined))) ∧
      (Function.Injective db.text → ∀ d ∈ q.dimensions options, ∀ points,
        d.shape = .histogram points → ∀ row : Row δ,
          d.key db options.dialect row ≠ some (db.sentinel options.dialect d.outputType)) := by
  obtain ⟨-, select, hplan, hwrite⟩ := compile_eq_ok_iff.mp h
  obtain ⟨p, hfits, rfl⟩ := plan_eq_ok_iff.mp hplan
  refine ⟨_, hplan, hwrite, ?_, ?_⟩
  · intro join hjoin
    refine ⟨hfits.outer_ne_qualifier hjoin, fun scope => ⟨hfits.holds_join_iff hjoin scope, ?_⟩⟩
    intro havoid
    refine (hfits.holds_join_iff hjoin scope).trans ?_
    exact forall₂_congr fun cells hcells => KeyCells.match_iff_eq (havoid cells hcells)
  · intro htext d hd points hshape row
    exact d.key_ne_sentinel_of_histogram htext hshape (hfits.outputType_of_histogram hd hshape) row

end Query

/-- The row of a site, and the row of a group of readings that may be joined to it. -/
def siteScope (outer joined : Option String) (site group : Option StoredDatum) :
    Scope StoredDatum :=
  Function.update (Scope.single outer [("site", site)]) joined [("g_0", group)]

theorem keyCells_siteScope {outer joined : Option String} (h : outer ≠ joined)
    (site group : Option StoredDatum) :
    lastReadings.keyCells readings .default outer joined (siteScope outer joined site group) =
      [⟨.unknown, site, group⟩] := by
  have houter : siteScope outer joined site group outer = [("site", site)] := by
    simp [siteScope, h]
  have hjoined : siteScope outer joined site group joined = [("g_0", group)] := by
    simp [siteScope]
  simp only [Query.keyCells, houter, hjoined]
  rfl

theorem exists_join_lastReadings {select : Select}
    (h : lastReadings.plan .default = .ok select) : ∃ join, join ∈ select.joins := by
  obtain ⟨p, hfits, rfl⟩ := Query.plan_eq_ok_iff.mp h
  have hlength : p.joins.length = 1 := hfits.length_joins
  exact List.exists_mem_of_length_pos (hlength ▸ Nat.one_pos)

/-- A known site and an unknown one are joined to their own readings only. -/
theorem holds_join_lastReadings :
    ∃ query select join, lastReadings.compile .default = .ok query ∧
      lastReadings.plan .default = .ok select ∧ join ∈ select.joins ∧
      ∀ site ∈ [none, some (StoredDatum.number 7)],
        ∀ group ∈ [none, some (StoredDatum.number 7)],
          (readings.holds join.condition (siteScope select.source.qualifier
            join.relation.qualifier site group) = true ↔ site = group) := by
  obtain ⟨planned, hplanned⟩ := plan_lastReadings
  obtain ⟨query, hquery, -⟩ := Query.compile_of_plan check_lastReadings hplanned
  obtain ⟨select, hplan, -, hjoins, -⟩ := Query.holds_join_iff_of_compile readings hquery
  have havoid : ∀ cell ∈ [none, some (StoredDatum.number 7)],
      cell ≠ some (readings.sentinel .postgres .unknown) := by
    decide +kernel
  obtain ⟨join, hjoin⟩ := exists_join_lastReadings hplan
  refine ⟨query, select, join, hquery, hplan, hjoin, ?_⟩
  intro site hsite group hgroup
  obtain ⟨happart, hscopes⟩ := hjoins join hjoin
  obtain ⟨-, hsame⟩ :=
    hscopes (siteScope select.source.qualifier join.relation.qualifier site group)
  rw [keyCells_siteScope happart, List.forall_mem_singleton, List.forall_mem_singleton] at hsame
  exact hsame ⟨havoid site hsite, havoid group hgroup⟩

/-- An unknown site is joined to the readings of a site whose name stands for null. -/
theorem holds_join_of_different_keys :
    ∃ query select join, lastReadings.compile .default = .ok query ∧
      lastReadings.plan .default = .ok select ∧ join ∈ select.joins ∧
      ∃ scope : Scope StoredDatum,
        lastReadings.keyCells readings .default select.source.qualifier join.relation.qualifier
          scope = [⟨.unknown, none, some (.text "__NULL__")⟩] ∧
        readings.holds join.condition scope = true := by
  obtain ⟨select, hplan⟩ := plan_lastReadings
  obtain ⟨query, hquery, -⟩ := Query.compile_of_plan check_lastReadings hplan
  obtain ⟨join, hjoin⟩ := exists_join_lastReadings hplan
  obtain ⟨p, hfits, rfl⟩ := Query.plan_eq_ok_iff.mp hplan
  have hcells := keyCells_siteScope (hfits.outer_ne_qualifier hjoin) none (some (.text "__NULL__"))
  refine ⟨query, _, join, hquery, hplan, hjoin, _, hcells, ?_⟩
  refine (hfits.holds_join_iff hjoin _).mpr ?_
  rw [hcells, List.forall_mem_singleton]
  exact .inr (.inl ⟨rfl, rfl⟩)

end PagedQuery
