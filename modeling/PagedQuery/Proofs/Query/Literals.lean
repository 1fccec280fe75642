import Mathlib.Data.List.Forall2
import PagedQuery.Proofs.Outcome
import PagedQuery.Proofs.Statement.Params
import PagedQuery.Query.Predicate

/-!
# Literals of filters

The condition that a filter becomes binds the literals of its leaves, from left
to right, and nothing else. Which relation and which dialect the condition is
made for changes neither the bound values nor the error of a filter that makes
no condition.

* `Leaf.predicate_cases`, `Filter.predicate_induction`: the conditions that filters become;
* `Leaf.literals?`: the values that a leaf binds;
* `predicateOf_eq_ok`: the values that the filters of a request bind;
* `predicateOf_sameOutcome`: the outcome of filters for two relations and dialects.
-/

namespace PagedQuery

namespace Leaf

/-- The value of a literal text of a leaf, under the type that is declared or known. -/
def literal? (catalog : Catalog) (leaf : Leaf) (text : String) : Option Value :=
  match leaf.resolveType catalog with
  | .ok fieldType => Literal.parse? text fieldType
  | .error _ => none

/-- The values that a leaf binds: none for a null test, the text itself or its pattern for a
comparison of strings, every literal for a choice, and one literal otherwise. -/
def literals? (catalog : Catalog) (leaf : Leaf) : Option (List Value) :=
  match leaf.op, leaf.values with
  | .isNull, _ => some []
  | .eqi, [text] => some [.string text]
  | .textSearch, [text] => some [.string text]
  | .contains, [text] => some [.string (Literal.likePattern text)]
  | .isIn, texts => texts.mapM (leaf.literal? catalog)
  | _, [text] => (leaf.literal? catalog text).map fun value => [value]
  | _, _ => none

theorem bind_eq_ok_iff {leaf : Leaf} {fieldType : FieldType} {text : String} {e : Expr} :
    leaf.bind fieldType text = .ok e ↔
      ∃ value, Literal.parse? text fieldType = some value ∧ e = .param value := by
  unfold Leaf.bind
  cases Literal.parse? text fieldType with
  | none => simp
  | some value => simp [eq_comm]

theorem single_eq_ok_iff {leaf : Leaf} {text : String} :
    leaf.single = .ok text ↔ leaf.values = [text] := by
  unfold Leaf.single
  split
  · rename_i value hvalues
    simp [hvalues]
  · rename_i hvalues
    simp only [reduceCtorEq, false_iff]
    exact hvalues text

/-- The conditions of a choice bind one literal each. -/
theorem mapM_bind {leaf : Leaf} {fieldType : FieldType} {texts : List String} {es : List Expr}
    (h : texts.mapM (leaf.bind fieldType) = .ok es) :
    ∃ values, texts.mapM (Literal.parse? · fieldType) = some values ∧
      values.length = texts.length ∧ es = values.map .param := by
  induction texts generalizing es with
  | nil =>
    rw [List.mapM_nil] at h
    cases h
    exact ⟨[], rfl, rfl, rfl⟩
  | cons text rest ih =>
    rw [List.mapM_cons] at h
    obtain ⟨first, hfirst, h⟩ := PagedQuery.bind_eq_ok_iff.mp h
    obtain ⟨others, hothers, h⟩ := PagedQuery.bind_eq_ok_iff.mp h
    cases h
    obtain ⟨value, hvalue, rfl⟩ := bind_eq_ok_iff.mp hfirst
    obtain ⟨values, hvalues, hlength, rfl⟩ := ih hothers
    exact ⟨value :: values, by simp [hvalue, hvalues], by simp [hlength], rfl⟩

theorem paramsList_map_param (values : List Value) :
    Expr.paramsList (values.map .param) = values := by
  induction values with
  | nil => rfl
  | cons value rest ih => simp [Expr.paramsList, Expr.params, ih]

theorem faultList?_map_param (values : List Value) :
    Expr.faultList? (values.map .param) = none := by
  induction values with
  | nil => rfl
  | cons value rest ih => simp [Expr.faultList?, Expr.fault?, ih]

theorem stringPredicate_params (dialect : Dialect) (qualifier : Option String) (leaf : Leaf)
    (text : String) (hop : leaf.op.isStringOnly) (hvalues : leaf.values = [text])
    (catalog : Catalog) :
    leaf.literals? catalog =
      some (stringPredicate dialect (columnOf qualifier leaf.field) text leaf.op).params := by
  obtain ⟨op, field, fieldType, values⟩ := leaf
  subst hvalues
  cases op with
  | eqi => rfl
  | contains => rfl
  | textSearch => cases dialect <;> rfl
  | _ => cases hop

theorem stringPredicate_fault? (dialect : Dialect) (qualifier : Option String) (field text : String)
    (op : LeafOp) :
    (stringPredicate dialect (columnOf qualifier field) text op).fault? = none := by
  unfold stringPredicate
  split
  · rfl
  · rfl
  · cases dialect <;> rfl

/-- The conditions that leaves become: null tests, comparisons of strings, choices among literals
and comparisons with one literal. -/
theorem predicate_cases {ctx : Context} {qualifier : Option String} {leaf : Leaf} {e : Expr}
    (h : leaf.predicate ctx qualifier = .ok e) :
    (leaf.op = .isNull ∧ e = .isNull (columnOf qualifier leaf.field)) ∨
    (∃ text, leaf.op.isStringOnly = true ∧ leaf.values = [text] ∧
      e = stringPredicate ctx.dialect (columnOf qualifier leaf.field) text leaf.op) ∨
    (∃ values, leaf.op = .isIn ∧ leaf.values.mapM (leaf.literal? ctx.catalog) = some values ∧
      values.length = leaf.values.length ∧ values ≠ [] ∧
      e = .inList (columnOf qualifier leaf.field) (values.map .param)) ∨
    (∃ op text value, comparison? leaf.op = some op ∧ leaf.values = [text] ∧
      leaf.literal? ctx.catalog text = some value ∧
      e = .compare (columnOf qualifier leaf.field) op (.param value)) := by
  unfold Leaf.predicate at h
  by_cases hnull : leaf.op = .isNull
  · simp only [hnull, if_true] at h
    cases h
    exact .inl ⟨hnull, rfl⟩
  by_cases hstring : leaf.op.isStringOnly
  · simp only [hnull, hstring, if_true, if_false] at h
    split at h
    · obtain ⟨text, htext, h⟩ := PagedQuery.bind_eq_ok_iff.mp h
      cases h
      exact .inr (.inl ⟨text, hstring, single_eq_ok_iff.mp htext, rfl⟩)
    · cases h
  simp only [hnull, hstring, if_false] at h
  obtain ⟨fieldType, htype, h⟩ := PagedQuery.bind_eq_ok_iff.mp h
  have hliteral : leaf.literal? ctx.catalog = (Literal.parse? · fieldType) := by
    funext text
    simp [literal?, htype]
  cases hop : comparison? leaf.op with
  | none =>
    -- the only operator left is a choice among literals
    have hin : leaf.op = .isIn := by
      revert hnull hstring hop
      cases leaf.op <;> simp [LeafOp.isStringOnly, comparison?]
    simp only [hop] at h
    split at h
    · cases h
    · rename_i hvalues
      obtain ⟨es, hes, h⟩ := PagedQuery.bind_eq_ok_iff.mp h
      cases h
      obtain ⟨values, hparsed, hlength, rfl⟩ := mapM_bind hes
      refine .inr (.inr (.inl ⟨values, hin, by rw [hliteral, hparsed], hlength, ?_, rfl⟩))
      rintro rfl
      exact hvalues (List.isEmpty_iff.mpr (List.length_eq_zero_iff.mp hlength.symm))
  | some op =>
    simp only [hop] at h
    obtain ⟨text, htext, h⟩ := PagedQuery.bind_eq_ok_iff.mp h
    obtain ⟨e', he', h⟩ := PagedQuery.bind_eq_ok_iff.mp h
    cases h
    obtain ⟨value, hvalue, rfl⟩ := bind_eq_ok_iff.mp he'
    exact .inr (.inr (.inr ⟨op, text, value, rfl, single_eq_ok_iff.mp htext,
      (congrFun hliteral text).trans hvalue, rfl⟩))

/-- The condition of a leaf binds the literals of the leaf, and can be written. -/
theorem predicate_eq_ok {ctx : Context} {qualifier : Option String} {leaf : Leaf} {e : Expr}
    (h : leaf.predicate ctx qualifier = .ok e) :
    leaf.literals? ctx.catalog = some e.params ∧ e.fault? = none := by
  rcases predicate_cases h with ⟨hop, rfl⟩ | ⟨text, hop, hvalues, rfl⟩ |
    ⟨values, hop, hparsed, -, hne, rfl⟩ | ⟨op, text, value, hop, hvalues, hvalue, rfl⟩
  · simp [literals?, hop, Expr.params, columnOf, Expr.fault?]
  · exact ⟨stringPredicate_params _ _ leaf text hop hvalues _, stringPredicate_fault? ..⟩
  · have hsome : (values.map Expr.param).isEmpty = false := by simpa using hne
    refine ⟨?_, ?_⟩
    · simp [literals?, hop, hparsed, Expr.params, columnOf, paramsList_map_param]
    · simp [Expr.fault?, hsome, columnOf, faultList?_map_param]
  · have hliterals : leaf.literals? ctx.catalog = some [value] := by
      revert hop
      cases hleaf : leaf.op <;> simp [comparison?, literals?, hleaf, hvalues, hvalue]
    exact ⟨by simpa [Expr.params, columnOf] using hliterals, by simp [Expr.fault?, columnOf]⟩

/-- Relation and dialect do not decide whether a leaf makes a condition. -/
theorem predicate_sameOutcome {ctx ctx' : Context} (hcatalog : ctx.catalog = ctx'.catalog)
    (qualifier qualifier' : Option String) (leaf : Leaf) :
    SameOutcome (fun _ _ => True) (leaf.predicate ctx qualifier)
      (leaf.predicate ctx' qualifier') := by
  unfold Leaf.predicate
  rw [hcatalog]
  by_cases hnull : leaf.op = .isNull
  · simp only [hnull, if_true]
    exact .ok trivial
  by_cases hstring : leaf.op.isStringOnly
  · simp only [hnull, hstring, if_true, if_false]
    split
    · exact SameOutcome.bind (.of_eq rfl) fun _ _ _ => .ok trivial
    · exact .error _
  simp only [hnull, hstring, if_false]
  refine SameOutcome.bind (.of_eq rfl) ?_
  rintro fieldType _ rfl
  split
  · split
    · exact .error _
    · exact SameOutcome.bind (.of_eq rfl) fun _ _ _ => .ok trivial
  · refine SameOutcome.bind (.of_eq rfl) ?_
    rintro text _ rfl
    exact SameOutcome.bind (.of_eq rfl) fun _ _ _ => .ok trivial

end Leaf

/-! ## Filters -/

section

variable {ctx : Context} {qualifier : Option String} {P : Filter → Expr → Prop}

mutual

/-- What holds of the conditions of leaves, and goes on to hold of the conditions of conjunctions,
disjunctions and negations, holds of the condition of every filter. -/
theorem Filter.predicate_induction
    (hleaf : ∀ leaf e, leaf.predicate ctx qualifier = .ok e → P (.leaf leaf) e)
    (hnot : ∀ filter e, P filter e → P (.not filter) (.not e))
    (hall : ∀ filters es, List.Forall₂ P filters es → P (.all filters) (.all es))
    (hany : ∀ filters es, List.Forall₂ P filters es → P (.any filters) (.any es))
    (f : Filter) {e : Expr} (h : f.predicate ctx qualifier = .ok e) : P f e := by
  cases f with
  | all filters =>
    obtain ⟨es, hes, h⟩ := bind_eq_ok_iff.mp h
    cases h
    exact hall filters es (Filter.predicates_induction hleaf hnot hall hany filters hes)
  | any filters =>
    obtain ⟨es, hes, h⟩ := bind_eq_ok_iff.mp h
    cases h
    exact hany filters es (Filter.predicates_induction hleaf hnot hall hany filters hes)
  | not filter =>
    obtain ⟨inner, hinner, h⟩ := bind_eq_ok_iff.mp h
    cases h
    exact hnot filter inner (filter.predicate_induction hleaf hnot hall hany hinner)
  | leaf l => exact hleaf l e h
termination_by structural f

theorem Filter.predicates_induction
    (hleaf : ∀ leaf e, leaf.predicate ctx qualifier = .ok e → P (.leaf leaf) e)
    (hnot : ∀ filter e, P filter e → P (.not filter) (.not e))
    (hall : ∀ filters es, List.Forall₂ P filters es → P (.all filters) (.all es))
    (hany : ∀ filters es, List.Forall₂ P filters es → P (.any filters) (.any es))
    (fs : List Filter) {es : List Expr} (h : Filter.predicates ctx qualifier fs = .ok es) :
    List.Forall₂ P fs es := by
  cases fs with
  | nil =>
    cases h
    exact .nil
  | cons filter rest =>
    obtain ⟨first, hfirst, h⟩ := bind_eq_ok_iff.mp h
    obtain ⟨others, hothers, h⟩ := bind_eq_ok_iff.mp h
    cases h
    exact .cons (filter.predicate_induction hleaf hnot hall hany hfirst)
      (Filter.predicates_induction hleaf hnot hall hany rest hothers)
termination_by structural fs

end

/-- The condition binds the literals of the leaves of the filter, from left to right, and can be
written. -/
def Filter.BindsLeaves (catalog : Catalog) (f : Filter) (e : Expr) : Prop :=
  ∃ literals, f.leaves.mapM (Leaf.literals? catalog) = some literals ∧
    e.params = literals.flatten ∧ e.fault? = none

theorem Filter.BindsLeaves.list {catalog : Catalog} {fs : List Filter} {es : List Expr}
    (h : List.Forall₂ (BindsLeaves catalog) fs es) :
    ∃ literals, (Filter.leavesOf fs).mapM (Leaf.literals? catalog) = some literals ∧
      Expr.paramsList es = literals.flatten ∧ Expr.faultList? es = none := by
  induction h with
  | nil => exact ⟨[], rfl, rfl, rfl⟩
  | cons hfirst _ ih =>
    obtain ⟨literals, hliterals, hparams, hfault⟩ := hfirst
    obtain ⟨literals', hliterals', hparams', hfault'⟩ := ih
    refine ⟨literals ++ literals', ?_, ?_, ?_⟩
    · simp [Filter.leavesOf, List.mapM_append, hliterals, hliterals']
    · simp [Expr.paramsList, hparams, hparams']
    · simp [Expr.faultList?, hfault, hfault']

/-- The conditions of filters bind the literals of all leaves, from left to right. -/
theorem Filter.predicates_eq_ok (fs : List Filter) {es : List Expr}
    (h : Filter.predicates ctx qualifier fs = .ok es) :
    ∃ literals, (Filter.leavesOf fs).mapM (Leaf.literals? ctx.catalog) = some literals ∧
      Expr.paramsList es = literals.flatten ∧ Expr.faultList? es = none := by
  refine Filter.BindsLeaves.list (Filter.predicates_induction ?_ ?_ ?_ ?_ fs h)
  · intro leaf e hleaf
    obtain ⟨hliterals, hfault⟩ := Leaf.predicate_eq_ok hleaf
    exact ⟨[e.params], by simp [Filter.leaves, hliterals], by simp, hfault⟩
  · intro filter e hfilter
    simpa [Filter.BindsLeaves, Filter.leaves, Expr.params, Expr.fault?] using hfilter
  · intro filters es hfilters
    simpa [Filter.BindsLeaves, Filter.leaves, Expr.params, Expr.fault?] using
      Filter.BindsLeaves.list hfilters
  · intro filters es hfilters
    simpa [Filter.BindsLeaves, Filter.leaves, Expr.params, Expr.fault?] using
      Filter.BindsLeaves.list hfilters

end

section

variable {ctx ctx' : Context} {qualifier qualifier' : Option String} {R : Expr → Expr → Prop}

mutual

/-- Conditions of a filter for two relations are related if those of its leaves are, and if
conjunctions, disjunctions and negations keep the relation. -/
theorem Filter.predicate_related
    (hleaf : ∀ leaf : Leaf,
      SameOutcome R (leaf.predicate ctx qualifier) (leaf.predicate ctx' qualifier'))
    (hnot : ∀ e e', R e e' → R (.not e) (.not e'))
    (hall : ∀ es es', List.Forall₂ R es es' → R (.all es) (.all es'))
    (hany : ∀ es es', List.Forall₂ R es es' → R (.any es) (.any es')) (f : Filter) :
    SameOutcome R (f.predicate ctx qualifier) (f.predicate ctx' qualifier') := by
  cases f with
  | all filters =>
    exact (Filter.predicates_related hleaf hnot hall hany filters).bind
      fun es es' h => .ok (hall es es' h)
  | any filters =>
    exact (Filter.predicates_related hleaf hnot hall hany filters).bind
      fun es es' h => .ok (hany es es' h)
  | not filter =>
    exact (filter.predicate_related hleaf hnot hall hany).bind fun e e' h => .ok (hnot e e' h)
  | leaf l => exact hleaf l
termination_by structural f

theorem Filter.predicates_related
    (hleaf : ∀ leaf : Leaf,
      SameOutcome R (leaf.predicate ctx qualifier) (leaf.predicate ctx' qualifier'))
    (hnot : ∀ e e', R e e' → R (.not e) (.not e'))
    (hall : ∀ es es', List.Forall₂ R es es' → R (.all es) (.all es'))
    (hany : ∀ es es', List.Forall₂ R es es' → R (.any es) (.any es')) (fs : List Filter) :
    SameOutcome (List.Forall₂ R) (Filter.predicates ctx qualifier fs)
      (Filter.predicates ctx' qualifier' fs) := by
  cases fs with
  | nil => exact .ok .nil
  | cons filter rest =>
    refine (filter.predicate_related hleaf hnot hall hany).bind fun e e' h => ?_
    exact (Filter.predicates_related hleaf hnot hall hany rest).bind
      fun es es' hs => .ok (.cons h hs)
termination_by structural fs

end

end

/-- The condition that all parts hold, if there are any. -/
def conjunctionOf : List Expr → Option Expr
  | [] => none
  | [only] => some only
  | parts => some (.all parts)

theorem paramsOption_conjunctionOf (es : List Expr) :
    Expr.paramsOption (conjunctionOf es) = Expr.paramsList es := by
  unfold conjunctionOf
  split <;> simp [Expr.paramsOption, Expr.paramsList, Expr.params]

theorem faultOption?_conjunctionOf (es : List Expr) :
    Expr.faultOption? (conjunctionOf es) = Expr.faultList? es := by
  unfold conjunctionOf
  split <;> simp [Expr.faultOption?, Expr.faultList?, Expr.fault?]

theorem predicateOf_eq (ctx : Context) (qualifier : Option String) (filters : List Filter) :
    predicateOf ctx qualifier filters =
      Filter.predicates ctx qualifier filters >>= fun es => .ok (conjunctionOf es) := by
  unfold predicateOf conjunctionOf
  cases Filter.predicates ctx qualifier filters with
  | error e => rfl
  | ok es => cases es with
    | nil => rfl
    | cons e rest => cases rest <;> rfl

/-- The condition of all filters binds the literals of all leaves, from left to right, and can
be written. -/
theorem predicateOf_eq_ok {ctx : Context} {qualifier : Option String} {filters : List Filter}
    {condition : Option Expr} (h : predicateOf ctx qualifier filters = .ok condition) :
    ∃ literals, (flattenFilters filters).mapM (Leaf.literals? ctx.catalog) = some literals ∧
      Expr.paramsOption condition = literals.flatten ∧ Expr.faultOption? condition = none := by
  rw [predicateOf_eq] at h
  obtain ⟨es, hes, h⟩ := bind_eq_ok_iff.mp h
  cases h
  rw [paramsOption_conjunctionOf, faultOption?_conjunctionOf]
  exact Filter.predicates_eq_ok filters hes

/-- Relation and dialect do not decide whether filters make a condition, nor what error they
end in. -/
theorem predicateOf_sameOutcome {ctx ctx' : Context} (hcatalog : ctx.catalog = ctx'.catalog)
    (qualifier qualifier' : Option String) (filters : List Filter) :
    SameOutcome (fun _ _ => True) (predicateOf ctx qualifier filters)
      (predicateOf ctx' qualifier' filters) := by
  rw [predicateOf_eq, predicateOf_eq]
  refine SameOutcome.bind (Filter.predicates_related (R := fun _ _ => True)
    (Leaf.predicate_sameOutcome hcatalog qualifier qualifier') ?_ ?_ ?_ filters) ?_
  · exact fun _ _ _ => trivial
  · exact fun _ _ _ => trivial
  · exact fun _ _ _ => trivial
  · exact fun _ _ _ => .ok trivial

end PagedQuery
