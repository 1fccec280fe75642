import PagedQuery.Proofs.Query.Scopes
import PagedQuery.Proofs.Relational.Evaluation

/-!
# Rows of statements

The rows of a statement before they are sorted and paged. Nulls make one group,
and a statement that aggregates without groups has one row, even of no rows.

* `keyedGroups`: rows by their keys;
* `Warehouse.matching`, `Warehouse.join`: the rows that a join finds;
* `Select.rows`, `Relation.rows`, `Select.joined`: the rows of statements and relations;
* `Select.scopes`, `Select.cells`: what a statement selects from, and the cells of its rows.
-/

namespace PagedQuery

/-! ## Groups -/

section

variable {α α' β β' κ : Type} [DecidableEq κ]

/-- The rows of each key that occurs. Without dimensions all rows are one group, even if there is
no row. -/
def keyedGroups (dims : List β) (value : β → α → κ) (rows : List α) : List (List κ × List α) :=
  if dims.isEmpty then [([], rows)]
  else (rows.map fun row => dims.map (value · row)).dedup.map fun key =>
    (key, rows.filter fun row => dims.map (value · row) = key)

variable {dims : List β} {value : β → α → κ} {rows : List α} {group : List κ × List α}

theorem keyedGroups_map (dims : List β') (f : β' → β) (value : β → α → κ) (rows : List α) :
    keyedGroups (dims.map f) value rows = keyedGroups dims (fun d => value (f d)) rows := by
  simp only [keyedGroups, List.isEmpty_map, List.map_map]
  rfl

theorem keyedGroups_map_rows (dims : List β) (value : β → α → κ) (f : α' → α) (rows : List α') :
    keyedGroups dims value (rows.map f) =
      (keyedGroups dims (fun d row => value d (f row)) rows).map fun group =>
        (group.1, group.2.map f) := by
  unfold keyedGroups
  split
  · rfl
  · rw [List.map_map, List.map_map]
    refine List.map_congr_left fun key _ => ?_
    rw [List.filter_map]
    rfl

/-- The rows of a group are those with its key. -/
theorem rows_of_mem_keyedGroups (h : group ∈ keyedGroups dims value rows) :
    group.2 = rows.filter fun row => dims.map (value · row) = group.1 := by
  unfold keyedGroups at h
  split at h
  · rename_i hempty
    rw [List.mem_singleton.mp h, List.isEmpty_iff.mp hempty]
    simp
  · obtain ⟨key, -, rfl⟩ := List.mem_map.mp h
    rfl

theorem key_of_mem_keyedGroups (h : group ∈ keyedGroups dims value rows) {row : α}
    (hrow : row ∈ group.2) : dims.map (value · row) = group.1 := by
  rw [rows_of_mem_keyedGroups h, List.mem_filter] at hrow
  exact of_decide_eq_true hrow.2

/-- A key is one of the keys of the rows, or there is nothing to group by. -/
theorem exists_of_mem_keyedGroups (h : group ∈ keyedGroups dims value rows) (hdims : dims ≠ []) :
    ∃ row ∈ group.2, dims.map (value · row) = group.1 := by
  have hrows := rows_of_mem_keyedGroups h
  unfold keyedGroups at h
  rw [if_neg (by simpa using hdims)] at h
  obtain ⟨key, hkey, rfl⟩ := List.mem_map.mp h
  obtain ⟨row, hrow, rfl⟩ := List.mem_map.mp (List.mem_dedup.mp hkey)
  refine ⟨row, ?_, rfl⟩
  rw [List.mem_filter]
  exact ⟨hrow, decide_eq_true rfl⟩

theorem length_of_mem_keyedGroups (h : group ∈ keyedGroups dims value rows) :
    group.1.length = dims.length := by
  by_cases hdims : dims = []
  · subst hdims
    rw [List.mem_singleton.mp h]
    rfl
  · obtain ⟨row, -, hkey⟩ := exists_of_mem_keyedGroups h hdims
    rw [← hkey, List.length_map]

/-- There is a group for the key of each row. -/
theorem mem_map_fst_keyedGroups {row : α} (hrow : row ∈ rows) :
    dims.map (value · row) ∈ (keyedGroups dims value rows).map Prod.fst := by
  unfold keyedGroups
  split
  · rename_i hempty
    rw [List.isEmpty_iff.mp hempty]
    exact List.mem_singleton_self _
  · rw [List.map_map]
    exact List.mem_map.mpr ⟨_, List.mem_dedup.mpr (List.mem_map_of_mem hrow), rfl⟩

theorem nodup_map_fst_keyedGroups (dims : List β) (value : β → α → κ) (rows : List α) :
    ((keyedGroups dims value rows).map Prod.fst).Nodup := by
  unfold keyedGroups
  split
  · exact List.nodup_singleton _
  · rw [List.map_map]
    exact (List.map_id _).symm ▸ List.nodup_dedup _

/-- Only one group has the key of a row. -/
theorem filter_keyedGroups {row : α} (hrow : row ∈ rows) {p : List κ × List α → Bool}
    (hp : ∀ group ∈ keyedGroups dims value rows,
      (p group = true ↔ dims.map (value · row) = group.1)) :
    (keyedGroups dims value rows).filter p =
      [(dims.map (value · row),
        rows.filter fun other => dims.map (value · other) = dims.map (value · row))] := by
  have hmem : dims.map (value · row) ∈ (keyedGroups dims value rows).map Prod.fst :=
    mem_map_fst_keyedGroups hrow
  obtain ⟨found, hfound, hkey⟩ := List.mem_map.mp hmem
  have hmembers := rows_of_mem_keyedGroups hfound
  have hpfound : p found = true := (hp found hfound).mpr hkey.symm
  have hnodup := nodup_map_fst_keyedGroups dims value rows
  obtain ⟨before, after, hgroups⟩ := List.append_of_mem hfound
  rw [hgroups, List.map_append, List.map_cons, List.nodup_append, List.nodup_cons] at hnodup
  obtain ⟨-, ⟨hafter, -⟩, hbefore⟩ := hnodup
  have hnot {group : List κ × List α} (hgroup : group ∈ keyedGroups dims value rows)
      (hne : group.1 ≠ found.1) : ¬ p group = true := fun htrue =>
    hne (((hp group hgroup).mp htrue).symm.trans hkey.symm)
  rw [← hkey, ← hmembers, hgroups, List.filter_append, List.filter_cons_of_pos hpfound,
    List.filter_eq_nil_iff.mpr, List.filter_eq_nil_iff.mpr]
  · rfl
  · intro group hgroup
    refine hnot ?_ fun heq => hafter (heq ▸ List.mem_map_of_mem hgroup)
    rw [hgroups]
    exact List.mem_append_right _ (List.mem_cons_of_mem _ hgroup)
  · intro group hgroup
    refine hnot ?_ fun heq =>
      hbefore _ (List.mem_map_of_mem hgroup) _ List.mem_cons_self heq
    rw [hgroups]
    exact List.mem_append_left _ hgroup

/-- Related rows with the same keys make related groups with the same keys. -/
theorem forall₂_keyedGroups {R : α → α' → Prop} {value' : β' → α' → κ} {dims' : List β'}
    {rows' : List α'} (hrows : List.Forall₂ R rows rows')
    (hempty : dims.isEmpty = dims'.isEmpty)
    (hkey : ∀ row row', R row row' → dims.map (value · row) = dims'.map (value' · row')) :
    List.Forall₂ (fun group group' => group.1 = group'.1 ∧ List.Forall₂ R group.2 group'.2)
      (keyedGroups dims value rows) (keyedGroups dims' value' rows') := by
  have hkeys : (rows.map fun row => dims.map (value · row)) =
      rows'.map fun row' => dims'.map (value' · row') := by
    induction hrows with
    | nil => rfl
    | cons hfirst _ ih => rw [List.map_cons, List.map_cons, hkey _ _ hfirst, ih]
  unfold keyedGroups
  rw [hempty, hkeys]
  split
  · exact .cons ⟨rfl, hrows⟩ .nil
  · rw [List.forall₂_map_left_iff, List.forall₂_map_right_iff, List.forall₂_same]
    intro key _
    refine ⟨rfl, List.rel_filter (fun row row' h => ?_) hrows⟩
    dsimp only
    rw [hkey _ _ h]

/-- Rows that come from one row are kept or dropped together if that row decides it. -/
theorem filter_flatMap_eq {f : α → List α'} {keep : α → Bool} {keep' : α' → Bool}
    (h : ∀ row ∈ rows, ∀ found ∈ f row, keep' found = keep row) :
    (rows.flatMap f).filter keep' = (rows.filter keep).flatMap f := by
  induction rows with
  | nil => rfl
  | cons row rest ih =>
    obtain ⟨hrow, hrest⟩ := List.forall_mem_cons.mp h
    rw [List.flatMap_cons, List.filter_append, ih hrest]
    cases hkeep : keep row with
    | true =>
      rw [List.filter_cons_of_pos hkeep, List.flatMap_cons, List.filter_eq_self.mpr]
      exact fun found hfound => (hrow found hfound).trans hkeep
    | false =>
      rw [List.filter_cons_of_neg (by simp [hkeep]), List.filter_eq_nil_iff.mpr, List.nil_append]
      exact fun found hfound => by simp [hrow found hfound, hkeep]

/-- Rows that are repeated have the same keys, in the same order. -/
theorem dedup_map_flatMap {key : α → κ} {key' : α' → κ} {f : α → List α'}
    (hf : ∀ row ∈ rows, f row ≠ [] ∧ ∀ found ∈ f row, key' found = key row) :
    ((rows.flatMap f).map key').dedup = (rows.map key).dedup := by
  have hrepeat (a : κ) (keys : List κ) (n : Nat) :
      (List.replicate (n + 1) a ++ keys).dedup = (a :: keys).dedup := by
    induction n with
    | zero => rfl
    | succ n ih =>
      rw [List.replicate_succ, List.cons_append, List.dedup_cons_of_mem, ih]
      exact List.mem_append_left _ (List.mem_replicate.mpr ⟨n.succ_ne_zero, rfl⟩)
  induction rows with
  | nil => rfl
  | cons row rest ih =>
    obtain ⟨⟨hne, hkeys⟩, hrest⟩ := List.forall_mem_cons.mp hf
    have hblock : (f row).map key' = List.replicate (f row).length (key row) := by
      rw [List.eq_replicate_iff, List.length_map]
      exact ⟨rfl, List.forall_mem_map.mpr hkeys⟩
    obtain ⟨n, hn⟩ := Nat.exists_eq_succ_of_ne_zero (mt List.length_eq_zero_iff.mp hne)
    have ih := ih hrest
    rw [List.flatMap_cons, List.map_append, hblock, hn, hrepeat, List.map_cons]
    -- Of equal keys the last one stays, so it only matters what keys come later.
    by_cases hmem : key row ∈ rest.map key
    · rw [List.dedup_cons_of_mem hmem, List.dedup_cons_of_mem, ih]
      rwa [← List.mem_dedup, ih, List.mem_dedup]
    · rw [List.dedup_cons_of_notMem hmem, List.dedup_cons_of_notMem, ih]
      rwa [← List.mem_dedup, ih, List.mem_dedup]

/-- Rows that are repeated make the same groups, of repeated rows. -/
theorem keyedGroups_flatMap {value' : β → α' → κ} {f : α → List α'}
    (hf : ∀ row ∈ rows, f row ≠ [] ∧
      ∀ found ∈ f row, dims.map (value' · found) = dims.map (value · row)) :
    keyedGroups dims value' (rows.flatMap f) =
      (keyedGroups dims value rows).map fun group => (group.1, group.2.flatMap f) := by
  unfold keyedGroups
  split
  · rfl
  · rw [dedup_map_flatMap hf, List.map_map]
    refine List.map_congr_left fun key _ => ?_
    refine congrArg (key, ·) ?_
    refine filter_flatMap_eq fun row hrow found hfound => ?_
    rw [(hf row hrow).2 found hfound]

end

/-! ## Joins -/

namespace Warehouse

variable {δ : Type} [LinearOrder δ] (db : Warehouse δ)

/-- The rows of a joined relation for which the condition holds. -/
def matching (qualifier : Option String) (rows : List (Row δ)) (condition : Expr)
    (scope : Scope δ) : List (Row δ) :=
  rows.filter fun row => db.holds condition (Function.update scope qualifier row)

/-- A row with the rows that are joined to it. A left join keeps a row that matches nothing, with
nulls. -/
def join (kind : JoinKind) (qualifier : Option String) (rows : List (Row δ)) (condition : Expr)
    (scope : Scope δ) : List (Scope δ) :=
  let found := match kind, db.matching qualifier rows condition scope with
    | .left, [] => [[]]
    | _, found => found
  found.map (Function.update scope qualifier)

/-! ## Select lists -/

/-- The cells of an item: all columns of a relation, or the value of its expression. -/
def itemCells (env : Env δ) (item : SelectItem) : Row δ :=
  match item.expr with
  | .wildcard qualifier => env.scope qualifier
  | expr => [(item.outputName?.getD "", expr.eval db env)]

/-- What the select list is evaluated with: each group of rows if rows are put together, and
otherwise each row. -/
def envs (items : List SelectItem) (groupBy : List Expr) (rows : List (Scope δ)) :
    List (Env δ) :=
  if groupBy.isEmpty && !items.any fun item => item.expr.hasAggregate then
    rows.zipIdx.map fun (scope, i) => db.ofPosition rows scope i
  else
    (keyedGroups groupBy (fun key scope => key.value db scope) rows).map fun group =>
      db.ofGroup group.2

end Warehouse

/-! ## Statements -/

section

variable {δ : Type} [LinearOrder δ] (db : Warehouse δ)

mutual

/-- The rows of a statement, all of them in no particular order. -/
def Select.rows : Select → List (Row δ)
  | ⟨distinct, items, source, joins, filter, groupBy, _, _, _⟩ =>
    let scopes := Select.joined joins (source.rows.map (Scope.single source.qualifier))
    let kept := scopes.filter fun scope => filter.all fun condition => db.holds condition scope
    let found := (db.envs items groupBy kept).map fun env => items.flatMap (db.itemCells env)
    if distinct then found.dedup else found
termination_by structural s => s

/-- The rows of a relation. -/
def Relation.rows : Relation → List (Row δ)
  | .table schema name _ => db.table schema name
  | .custom sql _ => db.custom sql
  | .derived select _ => select.rows
termination_by structural r => r

/-- Rows with the rows of further relations joined to them. -/
def Select.joined : List Join → List (Scope δ) → List (Scope δ)
  | [], scopes => scopes
  | ⟨kind, relation, condition⟩ :: rest, scopes =>
    Select.joined rest
      (scopes.flatMap (db.join kind relation.qualifier relation.rows condition))
termination_by structural joins => joins

end

/-- The rows that a join attaches to a row. -/
def Join.step (join : Join) : Scope δ → List (Scope δ) :=
  db.join join.kind join.relation.qualifier (join.relation.rows db) join.condition

theorem Select.joined_cons (join : Join) (rest : List Join) (scopes : List (Scope δ)) :
    Select.joined db (join :: rest) scopes =
      Select.joined db rest (scopes.flatMap (join.step db)) := by
  cases join
  rw [Select.joined]
  rfl

/-- The rows that a statement selects from, after its joins and its filter. -/
def Select.scopes (s : Select) : List (Scope δ) :=
  (Select.joined db s.joins ((s.source.rows db).map (Scope.single s.source.qualifier))).filter
    fun scope => s.filter.all fun condition => db.holds condition scope

/-- The cells of the rows of a statement, by the positions of its items. -/
def Select.cells (s : Select) : List (List (Option δ)) :=
  (s.rows db).map fun row => row.map Prod.snd

theorem Select.rows_eq (s : Select) :
    s.rows db =
      let found := (db.envs s.items s.groupBy (s.scopes db)).map fun env =>
        s.items.flatMap (db.itemCells env)
      if s.distinct then found.dedup else found := by
  obtain ⟨distinct, items, source, joins, filter, groupBy, orderBy, limit, offset⟩ := s
  rw [Select.rows]
  rfl

/-- A statement that puts rows together has one row for each group. -/
theorem Select.rows_of_isAggregated {s : Select} (h : s.IsAggregated) :
    s.rows db =
      let found := (keyedGroups s.groupBy (fun key scope => key.value db scope) (s.scopes db)).map
        fun group => s.items.flatMap (db.itemCells (db.ofGroup group.2))
      if s.distinct then found.dedup else found := by
  have hcondition : ¬ (s.groupBy.isEmpty && !s.items.any fun item => item.expr.hasAggregate) := by
    rcases h with hgroupBy | ⟨item, hitem, haggregate⟩
    · simp [hgroupBy]
    · have hany : s.items.any (fun item => item.expr.hasAggregate) = true :=
        List.any_eq_true.mpr ⟨item, hitem, haggregate⟩
      simp [hany]
  rw [rows_eq, Warehouse.envs, if_neg hcondition, List.map_map]
  rfl

/-- The cells of an expression that is not a wildcard. -/
theorem Warehouse.itemCells_eq {item : SelectItem}
    (h : ∀ qualifier, item.expr ≠ .wildcard qualifier) (env : Env δ) :
    db.itemCells env item = [(item.outputName?.getD "", item.expr.eval db env)] := by
  unfold itemCells
  split
  · rename_i qualifier hitem
    exact absurd hitem (h qualifier)
  · rfl

/-! ## Rows of joins -/

variable {db}

/-- A join changes nothing but the row of its own relation. -/
theorem Join.scope_of_mem_step {join : Join} {qualifier : Option String}
    (hne : qualifier ≠ join.relation.qualifier) {scope found : Scope δ}
    (h : found ∈ join.step db scope) : found qualifier = scope qualifier := by
  obtain ⟨row, -, rfl⟩ := List.mem_map.mp h
  exact Function.update_of_ne hne ..

/-- No row is lost in a left join. -/
theorem Join.step_ne_nil {join : Join} (hkind : join.kind = .left) (scope : Scope δ) :
    join.step db scope ≠ [] := by
  unfold Join.step Warehouse.join
  rw [hkind]
  cases db.matching join.relation.qualifier (join.relation.rows db) join.condition scope <;> simp

/-- A row that matches one row is joined to it. -/
theorem Join.step_eq_singleton {join : Join} {scope : Scope δ} {row : Row δ}
    (h : db.matching join.relation.qualifier (join.relation.rows db) join.condition scope = [row]) :
    join.step db scope = [Function.update scope join.relation.qualifier row] := by
  unfold Join.step Warehouse.join
  rw [h]
  cases join.kind <;> rfl

/-- Joins that find the same rows for two scopes attach them to both. -/
theorem Join.forall₂_step {R : Scope δ → Scope δ → Prop} {join join' : Join}
    (hkind : join.kind = join'.kind)
    (hqualifier : join.relation.qualifier = join'.relation.qualifier) {scope scope' : Scope δ}
    (hmatching : db.matching join.relation.qualifier (join.relation.rows db) join.condition scope =
      db.matching join'.relation.qualifier (join'.relation.rows db) join'.condition scope')
    (hR : ∀ row, R (Function.update scope join'.relation.qualifier row)
      (Function.update scope' join'.relation.qualifier row)) :
    List.Forall₂ R (join.step db scope) (join'.step db scope') := by
  unfold Join.step Warehouse.join
  rw [hmatching, hkind, hqualifier, List.forall₂_map_left_iff, List.forall₂_map_right_iff,
    List.forall₂_same]
  exact fun row _ => hR row

/-- What is joined to a row does not depend on the other rows. -/
theorem Select.joined_eq_flatMap (joins : List Join) (scopes : List (Scope δ)) :
    Select.joined db joins scopes = scopes.flatMap fun scope => Select.joined db joins [scope] := by
  induction joins generalizing scopes with
  | nil => exact (List.flatMap_singleton' scopes).symm
  | cons join rest ih =>
    rw [joined_cons, ih, List.flatMap_assoc]
    refine List.flatMap_congr fun scope _ => ?_
    rw [joined_cons, ih ([scope].flatMap _), List.flatMap_cons, List.flatMap_nil, List.append_nil]

theorem Select.joined_ne_nil {joins : List Join} (hleft : ∀ join ∈ joins, join.kind = .left)
    {scopes : List (Scope δ)} (h : scopes ≠ []) : Select.joined db joins scopes ≠ [] := by
  induction joins generalizing scopes with
  | nil => exact h
  | cons join rest ih =>
    obtain ⟨hjoin, hrest⟩ := List.forall_mem_cons.mp hleft
    rw [joined_cons]
    refine ih hrest fun hnil => ?_
    obtain ⟨scope, hscope⟩ := List.exists_mem_of_ne_nil _ h
    exact Join.step_ne_nil hjoin scope (List.flatMap_eq_nil_iff.mp hnil scope hscope)

/-- Joins change nothing but the rows of their own relations. -/
theorem Select.scope_of_mem_joined {qualifier : Option String} {joins : List Join}
    (hne : ∀ join ∈ joins, qualifier ≠ join.relation.qualifier) {scope found : Scope δ}
    (h : found ∈ Select.joined db joins [scope]) : found qualifier = scope qualifier := by
  induction joins generalizing scope with
  | nil => rw [List.mem_singleton.mp h]
  | cons join rest ih =>
    obtain ⟨hjoin, hrest⟩ := List.forall_mem_cons.mp hne
    rw [joined_cons, joined_eq_flatMap, List.flatMap_cons, List.flatMap_nil, List.append_nil,
      List.mem_flatMap] at h
    obtain ⟨between, hbetween, h⟩ := h
    rw [ih hrest h, Join.scope_of_mem_step hjoin hbetween]

/-- Joining and filtering by the row of another relation can be done in any order. -/
theorem Select.filter_joined {qualifier : Option String} (P : Row δ → Bool) {joins : List Join}
    (hne : ∀ join ∈ joins, qualifier ≠ join.relation.qualifier) (scopes : List (Scope δ)) :
    (Select.joined db joins scopes).filter (fun scope => P (scope qualifier)) =
      Select.joined db joins (scopes.filter fun scope => P (scope qualifier)) := by
  rw [joined_eq_flatMap, joined_eq_flatMap joins (scopes.filter _)]
  exact filter_flatMap_eq fun scope _ found hfound => by rw [scope_of_mem_joined hne hfound]

/-- Related rows stay related in joins that attach related rows to them. -/
theorem Select.forall₂_joined {R : Scope δ → Scope δ → Prop} {joins joins' : List Join}
    (hjoins : List.Forall₂ (fun join join' => ∀ scope scope', R scope scope' →
      List.Forall₂ R (join.step db scope) (join'.step db scope')) joins joins')
    {scopes scopes' : List (Scope δ)} (hscopes : List.Forall₂ R scopes scopes') :
    List.Forall₂ R (Select.joined db joins scopes) (Select.joined db joins' scopes') := by
  induction hjoins generalizing scopes scopes' with
  | nil => exact hscopes
  | cons hfirst _ ih =>
    rw [joined_cons, joined_cons]
    exact ih (List.rel_flatMap hscopes fun scope scope' h => hfirst scope scope' h)

end

end PagedQuery
