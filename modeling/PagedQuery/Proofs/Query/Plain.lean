import PagedQuery.Proofs.Query.Parts
import PagedQuery.Proofs.Statement.Params

/-!
# Plain expressions

Only filters bind values. All else in a plan is made of columns and literals,
binds nothing and can always be written.

* `Expr.IsPlain`: expressions that bind nothing and can be written;
* `Expr.IsPlain.kept`: every way to build expressions outside of filters keeps them plain;
* `Select.PlainClauses`: statements that bind only what their relations and filters bind.
-/

namespace PagedQuery

/-- An expression that binds nothing and can be written. -/
structure Expr.IsPlain (e : Expr) : Prop where
  params : e.params = []
  fault? : e.fault? = none

/-! ## Lists of plain expressions -/

namespace Expr

theorem paramsList_eq_nil {es : List Expr} (h : ∀ e ∈ es, e.IsPlain) : paramsList es = [] := by
  induction es with
  | nil => rfl
  | cons e rest ih =>
    have hrest := ih fun e he => h e (List.mem_cons_of_mem _ he)
    simp [paramsList, (h e List.mem_cons_self).params, hrest]

theorem faultList?_eq_none {es : List Expr} (h : ∀ e ∈ es, e.IsPlain) : faultList? es = none := by
  induction es with
  | nil => rfl
  | cons e rest ih =>
    have hrest := ih fun e he => h e (List.mem_cons_of_mem _ he)
    simp [faultList?, (h e List.mem_cons_self).fault?, hrest]

theorem paramsKeys_eq_nil {keys : List (Expr × Direction)} (h : ∀ key ∈ keys, key.1.IsPlain) :
    paramsKeys keys = [] := by
  induction keys with
  | nil => rfl
  | cons key rest ih =>
    have hrest := ih fun key hkey => h key (List.mem_cons_of_mem _ hkey)
    simp [paramsKeys, (h key List.mem_cons_self).params, hrest]

theorem faultKeys?_eq_none {keys : List (Expr × Direction)} (h : ∀ key ∈ keys, key.1.IsPlain) :
    faultKeys? keys = none := by
  induction keys with
  | nil => rfl
  | cons key rest ih =>
    have hrest := ih fun key hkey => h key (List.mem_cons_of_mem _ hkey)
    simp [faultKeys?, (h key List.mem_cons_self).fault?, hrest]

theorem paramsBranches_eq_nil {branches : List (Expr × Expr)}
    (h : ∀ branch ∈ branches, branch.1.IsPlain ∧ branch.2.IsPlain) :
    paramsBranches branches = [] := by
  induction branches with
  | nil => rfl
  | cons branch rest ih =>
    have hrest := ih fun branch hbranch => h branch (List.mem_cons_of_mem _ hbranch)
    have hfirst := h branch List.mem_cons_self
    simp [paramsBranches, hfirst.1.params, hfirst.2.params, hrest]

theorem faultBranches?_eq_none {branches : List (Expr × Expr)}
    (h : ∀ branch ∈ branches, branch.1.IsPlain ∧ branch.2.IsPlain) :
    faultBranches? branches = none := by
  induction branches with
  | nil => rfl
  | cons branch rest ih =>
    have hrest := ih fun branch hbranch => h branch (List.mem_cons_of_mem _ hbranch)
    have hfirst := h branch List.mem_cons_self
    simp [faultBranches?, hfirst.1.fault?, hfirst.2.fault?, hrest]

/-! ## Plain expressions -/

namespace IsPlain

theorem literal (value : Literal) : (Expr.literal value).IsPlain := ⟨rfl, rfl⟩

theorem raw (sql : String) : (Expr.raw sql).IsPlain := ⟨rfl, rfl⟩

theorem case {branches : List (Expr × Expr)} {otherwise : Option Expr}
    (hb : ∀ branch ∈ branches, branch.1.IsPlain ∧ branch.2.IsPlain)
    (ho : ∀ e ∈ otherwise, e.IsPlain) : (Expr.case branches otherwise).IsPlain := by
  cases otherwise with
  | none =>
    exact ⟨by simp [Expr.params, paramsOption, paramsBranches_eq_nil hb],
      by simp [Expr.fault?, faultOption?, faultBranches?_eq_none hb]⟩
  | some e =>
    have he := ho e rfl
    exact ⟨by simp [Expr.params, paramsOption, paramsBranches_eq_nil hb, he.params],
      by simp [Expr.fault?, faultOption?, faultBranches?_eq_none hb, he.fault?]⟩

theorem aggregate {arg : Expr} (func : Aggregation) (h : arg.IsPlain) :
    (Expr.aggregate func (some arg)).IsPlain := by
  refine ⟨by simp [Expr.params, paramsOption, h.params], ?_⟩
  cases func <;> simp [Expr.fault?, faultOption?, h.fault?]

/-- Nothing but filters binds a value. -/
theorem kept (dialect : Dialect) : Expr.Kept dialect Expr.IsPlain where
  column _ := ⟨rfl, rfl⟩
  wildcard _ := ⟨rfl, rfl⟩
  null := literal _
  int _ := literal _
  string _ := literal _
  float _ := literal _
  sentinel := by cases dialect <;> exact raw _
  compare _ hl hr :=
    ⟨by simp [Expr.params, hl.params, hr.params], by simp [Expr.fault?, hl.fault?, hr.fault?]⟩
  arithmetic _ hl hr :=
    ⟨by simp [Expr.params, hl.params, hr.params], by simp [Expr.fault?, hl.fault?, hr.fault?]⟩
  isNull h := ⟨by simp [Expr.params, h.params], by simp [Expr.fault?, h.fault?]⟩
  case := case
  coalesce h :=
    ⟨by simp [Expr.params, paramsList_eq_nil h], by simp [Expr.fault?, faultList?_eq_none h]⟩
  all h :=
    ⟨by simp [Expr.params, paramsList_eq_nil h], by simp [Expr.fault?, faultList?_eq_none h]⟩
  call _ h :=
    ⟨by simp [Expr.params, paramsList_eq_nil h], by simp [Expr.fault?, faultList?_eq_none h]⟩
  cast _ h := ⟨by simp [Expr.params, h.params], by simp [Expr.fault?, h.fault?]⟩
  aggregate := aggregate
  countRows := ⟨rfl, rfl⟩
  window _ hp ho :=
    ⟨by simp [Expr.params, paramsList_eq_nil hp, paramsKeys_eq_nil ho],
      by simp [Expr.fault?, faultList?_eq_none hp, faultKeys?_eq_none ho]⟩

end IsPlain

end Expr

/-! ## Statements that bind only what their filters bind -/

/-- All clauses but the filter and the relations are made of plain expressions. -/
structure Select.PlainClauses (s : Select) : Prop where
  items_ne_nil : s.items ≠ []
  items : ∀ item ∈ s.items, item.expr.IsPlain
  groupBy : ∀ e ∈ s.groupBy, e.IsPlain
  orderBy : ∀ key ∈ s.orderBy, key.1.IsPlain

namespace Select.PlainClauses

variable {s : Select} (h : s.PlainClauses)
include h

theorem map_expr_isPlain : ∀ e ∈ s.items.map SelectItem.expr, e.IsPlain := by
  intro e he
  obtain ⟨item, hitem, rfl⟩ := List.mem_map.mp he
  exact h.items item hitem

theorem params_eq :
    s.params = s.source.params ++ Select.joinParams s.joins ++ Expr.paramsOption s.filter := by
  have hitems := Expr.paramsList_eq_nil h.map_expr_isPlain
  have hgroupBy := Expr.paramsList_eq_nil h.groupBy
  have horderBy := Expr.paramsKeys_eq_nil h.orderBy
  obtain ⟨distinct, items, source, joins, filter, groupBy, orderBy, limit, offset⟩ := s
  rw [Select.params, hitems, hgroupBy, horderBy]
  simp

theorem fault?_eq :
    s.fault? =
      (s.source.fault? <|> Select.joinFault? s.joins <|> Expr.faultOption? s.filter) := by
  have hne : s.items.isEmpty = false := by
    simpa [List.isEmpty_iff] using h.items_ne_nil
  have hitems := Expr.faultList?_eq_none h.map_expr_isPlain
  have hgroupBy := Expr.faultList?_eq_none h.groupBy
  have horderBy := Expr.faultKeys?_eq_none h.orderBy
  obtain ⟨distinct, items, source, joins, filter, groupBy, orderBy, limit, offset⟩ := s
  rw [Select.fault?, hitems, hgroupBy, horderBy, hne]
  simp

end Select.PlainClauses

section

variable {dimensions : List Dimension} (hdimensions : ∀ d ∈ dimensions, d.shape.IsFinite)
include hdimensions

theorem rankedSelect_plainClauses (dialect : Dialect) (base : Relation) (filter : Option Expr)
    (windows : List PercentileWindow) :
    (rankedSelect dialect base filter dimensions windows).PlainClauses where
  items_ne_nil := List.cons_ne_nil _ _
  items := (Expr.IsPlain.kept dialect).rankedItems hdimensions base filter windows
  groupBy := fun _ he => absurd he List.not_mem_nil
  orderBy := fun _ hkey => absurd hkey List.not_mem_nil

theorem latestSelect_plainClauses (dialect : Dialect) (timeField : String) (source : Relation)
    (filter : Option Expr) :
    (latestSelect dialect timeField source filter dimensions).PlainClauses where
  items_ne_nil := by simp [latestSelect]
  items := (Expr.IsPlain.kept dialect).latestItems hdimensions timeField source filter
  groupBy := (Expr.IsPlain.kept dialect).dimensionKeys hdimensions source.qualifier
  orderBy := fun _ hkey => absurd hkey List.not_mem_nil

end

end PagedQuery
