import PagedQuery.Proofs.Json.Building
import PagedQuery.Proofs.Json.Soundness
import PagedQuery.Request.Printer
import PagedQuery.Request.Reader

/-!
# Reading what was written

Filters and sorts are written in one form and read in many. What is written
reads back, unless it is nested too deep. A filter that was read is nested at
most one level deeper when it is written again, since the literals of a leaf
are always written as a list.

* `Filter.ofJson?_toJson`, `SortClause.ofJson?_toJson`: what is written reads back;
* `Filter.depth_toJson_le`: how deep a filter that was read is written;
* `read?_render_toJson`: texts of filters and sorts.
-/

namespace PagedQuery

namespace Json

/-! ## Tagged values -/

@[simp] theorem depth_ofString (text : String) : (ofString text).depth = 0 := rfl

theorem depth_ofStrings (texts : List String) : (ofStrings texts).depth = 1 := by
  have hle : itemsDepth (texts.map ofString) ≤ 0 := by
    apply itemsDepth_le
    intro item hitem
    obtain ⟨text, -, rfl⟩ := List.mem_map.mp hitem
    exact Nat.le_of_eq (depth_ofString text)
  rw [ofStrings, depth]
  omega

@[simp] theorem depth_ofTagged (tag key : String) (value : Json) :
    (ofTagged tag [(key, value)]).depth = value.depth + 1 := by
  change max 0 (max value.depth 0) + 1 = value.depth + 1
  omega

theorem isSoundWithin_ofStrings (texts : List String) (d : Nat) :
    (ofStrings texts).isSoundWithin (d + 1) = true := by
  have hall : areSoundWithin d (texts.map ofString) = true := by
    induction texts with
    | nil => rfl
    | cons text rest ih => exact ih
  rw [ofStrings, isSoundWithin, Nat.add_sub_cancel, hall]
  simp

theorem isSoundWithin_array (items : List Json) (d : Nat) :
    (array items).isSoundWithin (d + 1) = areSoundWithin d items := by
  simp [isSoundWithin]

@[simp] theorem isSoundWithin_ofTagged (tag key : String) (value : Json) (d : Nat) :
    (ofTagged tag [(key, value)]).isSoundWithin (d + 1) = value.isSoundWithin d := by
  simp [ofTagged, ofMembers, ofString, isSoundWithin, membersSoundWithin]

theorem isSoundWithin_ofTagged_array (tag key : String) {items : List Json} {d : Nat}
    (hdepth : (ofTagged tag [(key, array items)]).depth ≤ d)
    (hitems : ∀ {d}, itemsDepth items ≤ d → areSoundWithin d items = true) :
    (ofTagged tag [(key, array items)]).isSoundWithin d = true := by
  rw [depth_ofTagged, depth] at hdepth
  obtain ⟨d', rfl⟩ := Nat.exists_eq_add_of_le' hdepth
  rw [← Nat.add_assoc, isSoundWithin_ofTagged, ← Nat.add_assoc, isSoundWithin_array]
  exact hitems (Nat.le_add_left ..)

/-- Only arrays and objects have tags. -/
theorem depth_pos_of_tagged? {value tag body : Json} (h : value.tagged? = some (tag, body)) :
    0 < value.depth := by
  unfold tagged? at h
  split at h
  · exact Nat.succ_pos _
  · exact Nat.succ_pos _
  · cases h

theorem mapM_eq_some {α β : Type} {f : α → Option β} {g : β → α} {ys : List β}
    (h : ∀ y ∈ ys, f (g y) = some y) : (ys.map g).mapM f = some ys := by
  induction ys with
  | nil => rfl
  | cons y ys ih =>
    obtain ⟨hy, hys⟩ := List.forall_mem_cons.mp h
    rw [List.map_cons, List.mapM_cons, hy, ih hys]
    rfl

/-- The text of a sound value is read as what the value is read as. -/
theorem readTagged?_render {α : Type} {decode : Json → Option α} {value : Json}
    (h : value.isSound 0 = true) : readTagged? decode value.render = decode value := by
  rw [readTagged?, read?_render (hasText_of_isSoundWithin value h), Option.bind_some, if_pos h]

end Json

open Json

/-! ## Names -/

@[simp] theorem FieldType.read?_name (type : FieldType) :
    FieldType.read? type.name = some type := by
  cases type <;> rfl

@[simp] theorem Direction.ofName?_name (direction : Direction) :
    ofName? direction.name = some direction := by
  cases direction <;> rfl

@[simp] theorem FilterKind.ofTag?_name (inner : Bool) (op : LeafOp) :
    ofTag? inner (ofString op.name) = some (.leaf op) := by
  cases op <;> rfl

/-! ## Filters -/

theorem Leaf.depth_toJson (l : Leaf) : l.toJson.depth = 2 := by
  change max 0 (max 0 (max 0 (max (ofStrings l.values).depth 0))) + 1 = 2
  rw [depth_ofStrings]
  rfl

theorem Leaf.isSoundWithin_toJson (l : Leaf) (d : Nat) :
    l.toJson.isSoundWithin (d + 2) = true := by
  simp [Leaf.toJson, ofTagged, ofMembers, ofString, isSoundWithin, membersSoundWithin,
    isSoundWithin_ofStrings]

/-- What is written of a leaf besides its tag. -/
def Leaf.body (l : Leaf) : Json :=
  ofMembers [("field_path", ofString l.field), ("field_type", ofString l.fieldType.name),
    ("values", ofStrings l.values)]

/-- The fields that are found in it. -/
def Leaf.record (l : Leaf) : Record :=
  { named := true
    fields := [("field_path", ofString l.field), ("field_type", ofString l.fieldType.name),
      ("values", ofStrings l.values)] }

theorem Leaf.of?_body (l : Leaf) :
    Record.of? [["field_path"], ["field_type"], ["values", "value"]] l.body = some l.record := rfl

theorem Leaf.ofJson?_body (l : Leaf) : Leaf.ofJson? l.op l.body = some l := by
  have hfield : l.record.required? "field_path" string? = some l.field := rfl
  have htype : l.record.orDefault? "field_type" .unknown
      (fun type => type.string?.bind FieldType.read?) = some l.fieldType :=
    l.fieldType.read?_name
  have hvalues : l.record.orDefault? "values" [] literals? = some l.values :=
    mapM_eq_some fun text _ => rfl
  simp only [Leaf.ofJson?, Leaf.of?_body, Option.bind_eq_bind, Option.bind_some, hfield, htype,
    hvalues]

namespace Filter

theorem toJsons_eq_map (filters : List Filter) : toJsons filters = filters.map toJson := by
  induction filters with
  | nil => rfl
  | cons filter rest ih => rw [toJsons, ih, List.map_cons]

mutual

/-- A filter is written in sound JSON, if the depth allows it. -/
theorem isSoundWithin_toJson : ∀ (f : Filter) {d : Nat}, f.toJson.depth ≤ d →
    f.toJson.isSoundWithin d = true
  | .all filters, _, h =>
    isSoundWithin_ofTagged_array "and" "filters" h fun hle => areSoundWithin_toJsons filters hle
  | .any filters, _, h =>
    isSoundWithin_ofTagged_array "or" "filters" h fun hle => areSoundWithin_toJsons filters hle
  | .not filter, d, h => by
    rw [toJson, depth_ofTagged] at h
    obtain ⟨d', rfl⟩ := Nat.exists_eq_add_of_le' h
    rw [toJson, ← Nat.add_assoc, isSoundWithin_ofTagged]
    exact isSoundWithin_toJson filter (Nat.le_add_left ..)
  | .leaf l, d, h => by
    rw [toJson, Leaf.depth_toJson] at h
    obtain ⟨d', rfl⟩ := Nat.exists_eq_add_of_le' h
    exact l.isSoundWithin_toJson d'

theorem areSoundWithin_toJsons : ∀ (filters : List Filter) {d : Nat},
    itemsDepth (toJsons filters) ≤ d → areSoundWithin d (toJsons filters) = true
  | [], _, _ => rfl
  | filter :: rest, d, h => by
    obtain ⟨hfilter, hrest⟩ := Nat.max_le.mp h
    rw [toJsons, areSoundWithin, isSoundWithin_toJson filter hfilter,
      areSoundWithin_toJsons rest hrest]
    rfl

end

/-! ### Reading -/

section

variable {depth : Nat} {inner : Bool} {value body tag : Json} {f : Filter}

theorem ofJsonWithin?_all (depth : Nat) (inner : Bool) (value : Json) :
    ofJsonWithin? (depth + 1) inner (ofTagged "and" [("filters", value)]) =
      (value.list? (ofJsonWithin? depth true)).map .all := rfl

theorem ofJsonWithin?_any (depth : Nat) (inner : Bool) (value : Json) :
    ofJsonWithin? (depth + 1) inner (ofTagged "or" [("filters", value)]) =
      (value.list? (ofJsonWithin? depth true)).map .any := rfl

theorem ofJsonWithin?_not (depth : Nat) (inner : Bool) (value : Json) :
    ofJsonWithin? (depth + 1) inner (ofTagged "not" [("filter", value)]) =
      (ofJsonWithin? depth true value).map .not := rfl

theorem ofJsonWithin?_leaf (depth : Nat) (inner : Bool) (l : Leaf) :
    ofJsonWithin? (depth + 1) inner l.toJson = some (.leaf l) := by
  have htagged : l.toJson.tagged? = some (ofString l.op.name, l.body) := rfl
  rw [ofJsonWithin?, htagged, Option.bind_eq_bind, Option.bind_some]
  simp only [FilterKind.ofTag?_name, Option.bind_eq_bind, Option.bind_some, Leaf.ofJson?_body]
  rfl

mutual

/-- What is written reads back, if the depth allows it. -/
theorem ofJsonWithin?_toJson : ∀ (f : Filter) {depth : Nat} (inner : Bool),
    f.toJson.depth ≤ depth → ofJsonWithin? depth inner f.toJson = some f
  | .all filters, d, inner, h => by
    rw [toJson, depth_ofTagged, depth] at h
    obtain ⟨d', rfl⟩ := Nat.exists_eq_add_of_le' h
    rw [toJson, ← Nat.add_assoc, ofJsonWithin?_all, list?, items?, Option.bind_some,
      mapM_ofJsonWithin?_toJsons filters (by omega)]
    rfl
  | .any filters, d, inner, h => by
    rw [toJson, depth_ofTagged, depth] at h
    obtain ⟨d', rfl⟩ := Nat.exists_eq_add_of_le' h
    rw [toJson, ← Nat.add_assoc, ofJsonWithin?_any, list?, items?, Option.bind_some,
      mapM_ofJsonWithin?_toJsons filters (by omega)]
    rfl
  | .not filter, d, inner, h => by
    rw [toJson, depth_ofTagged] at h
    obtain ⟨d', rfl⟩ := Nat.exists_eq_add_of_le' h
    rw [toJson, ← Nat.add_assoc, ofJsonWithin?_not,
      ofJsonWithin?_toJson filter true (Nat.le_add_left ..)]
    rfl
  | .leaf l, d, inner, h => by
    rw [toJson, Leaf.depth_toJson] at h
    obtain ⟨d', rfl⟩ := Nat.exists_eq_add_of_le' h
    exact ofJsonWithin?_leaf _ inner l

theorem mapM_ofJsonWithin?_toJsons : ∀ (filters : List Filter) {depth : Nat},
    itemsDepth (toJsons filters) ≤ depth →
    (toJsons filters).mapM (ofJsonWithin? depth true) = some filters
  | [], _, _ => rfl
  | filter :: rest, d, h => by
    obtain ⟨hfilter, hrest⟩ := Nat.max_le.mp h
    rw [toJsons, List.mapM_cons, ofJsonWithin?_toJson filter true hfilter,
      mapM_ofJsonWithin?_toJsons rest hrest]
    rfl

end

/-- A filter that stays within the limit reads back. -/
theorem ofJson?_toJson (h : f.toJson.depth ≤ maxDepth) : ofJson? f.toJson = some f :=
  ofJsonWithin?_toJson f false h

/-- Filters in a field of a record are written at most one level deeper than the record. -/
theorem depth_ofTagged_filters_le {shape : Shape} {r : Record} {name : String}
    {decode : Json → Option Filter} {filters : List Filter}
    (hdecode : ∀ {item filter}, decode item = some filter → filter.toJson.depth ≤ item.depth + 1)
    (hr : Record.of? shape body = some r) (h : r.required? name (list? decode) = some filters)
    (tag : String) :
    (ofTagged tag [("filters", .array (toJsons filters))]).depth ≤ body.depth + 1 := by
  obtain ⟨list, hget, h⟩ := Option.bind_eq_some_iff.mp h
  obtain ⟨items, hitems, h⟩ := Option.bind_eq_some_iff.mp h
  have hlt : list.depth < body.depth := Record.depth_lt_of_get? hr hget
  have hlist : itemsDepth items + 1 ≤ list.depth := by
    unfold items? at hitems
    split at hitems
    · cases hitems
      exact Nat.le_refl _
    · cases hitems
  have hle : itemsDepth (toJsons filters) ≤ itemsDepth items + 1 := by
    rw [toJsons_eq_map]
    apply itemsDepth_le
    intro written hwritten
    obtain ⟨filter, hfilter, rfl⟩ := List.mem_map.mp hwritten
    obtain ⟨item, hitem, hread⟩ := exists_of_mapM_eq_some h hfilter
    exact Nat.le_trans (hdecode hread) (Nat.succ_le_succ (depth_le_itemsDepth hitem))
  rw [depth_ofTagged, depth]
  omega

/-- A filter that was read is written at most one level deeper. -/
theorem depth_toJson_le (h : ofJsonWithin? depth inner value = some f) :
    f.toJson.depth ≤ value.depth + 1 := by
  induction depth generalizing inner value f with
  | zero => cases h
  | succ depth ih =>
    rw [ofJsonWithin?] at h
    obtain ⟨⟨tag, body⟩, htagged, h⟩ := Option.bind_eq_some_iff.mp h
    obtain ⟨kind, -, h⟩ := Option.bind_eq_some_iff.mp h
    have hbody : body.depth ≤ value.depth := depth_le_of_tagged? htagged
    cases kind with
    | all =>
      obtain ⟨r, hr, h⟩ := Option.bind_eq_some_iff.mp h
      obtain ⟨filters, hfilters, rfl⟩ := Option.map_eq_some_iff.mp h
      have hle := depth_ofTagged_filters_le ih hr hfilters "and"
      exact Nat.le_trans hle (Nat.succ_le_succ hbody)
    | any =>
      obtain ⟨r, hr, h⟩ := Option.bind_eq_some_iff.mp h
      obtain ⟨filters, hfilters, rfl⟩ := Option.map_eq_some_iff.mp h
      have hle := depth_ofTagged_filters_le ih hr hfilters "or"
      exact Nat.le_trans hle (Nat.succ_le_succ hbody)
    | not =>
      obtain ⟨r, hr, h⟩ := Option.bind_eq_some_iff.mp h
      obtain ⟨filter, hfilter, rfl⟩ := Option.map_eq_some_iff.mp h
      obtain ⟨inside, hget, hread⟩ := Option.bind_eq_some_iff.mp hfilter
      have hlt : inside.depth < body.depth := Record.depth_lt_of_get? hr hget
      have hle : filter.toJson.depth ≤ inside.depth + 1 := ih hread
      rw [toJson, depth_ofTagged]
      omega
    | leaf op =>
      obtain ⟨l, -, rfl⟩ := Option.map_eq_some_iff.mp h
      have hpos := depth_pos_of_tagged? htagged
      rw [toJson, Leaf.depth_toJson]
      omega

/-! ### Texts -/

/-- A filter reads back from its text, unless it is nested too deep. -/
theorem read?_render (f : Filter) :
    read? f.toJson.render = if f.toJson.depth ≤ maxDepth then some f else none := by
  split
  · next h => rw [read?, readTagged?_render (isSoundWithin_toJson f h), ofJson?_toJson h]
  · next h =>
    have hsound : ¬ f.toJson.isSound 0 = true := mt (depth_le_of_isSoundWithin _) h
    have htext := hasText_of_isSoundWithin _ (isSoundWithin_toJson f (Nat.le_refl _))
    rw [read?, readTagged?, Json.read?_render htext, Option.bind_some, if_neg hsound]

theorem depth_toJson_le_of_read? {text : String} (h : read? text = some f) :
    ∃ value, Json.read? text = some value ∧ value.depth ≤ maxDepth ∧
      f.toJson.depth ≤ value.depth + 1 := by
  obtain ⟨value, hvalue, h⟩ := Option.bind_eq_some_iff.mp h
  split at h
  · next hsound =>
    exact ⟨value, hvalue, depth_le_of_isSoundWithin value hsound, depth_toJson_le h⟩
  · cases h

end

end Filter

/-! ## Sorts -/

namespace SortClause

variable {s : SortClause} {value : Json}

/-- The position that a sort refers to, if there is one, has 64 bits. -/
def FitsWord : SortClause → Prop
  | .raw .. => True
  | .agg (.group index) _ => index < Nat.pow 2 64
  | .agg (.metric index) _ => index < Nat.pow 2 64

theorem isSound_ofTagged_ofNat {index : Nat} (h : index < Nat.pow 2 64) (list direction : String) :
    (ofTagged "agg" [(list, ofNat index), ("direction", ofString direction)]).isSound 0 = true := by
  have hindex : (Numeral.integer false index).toBinary64?.isSome = true :=
    Numeral.isSome_toBinary64? h
  simp [ofTagged, ofMembers, ofString, ofNat, isSound, maxDepth, isSoundWithin,
    membersSoundWithin, hindex]

theorem isSound_toJson (h : s.FitsWord) : s.toJson.isSound 0 = true := by
  rcases s with ⟨field, direction⟩ | ⟨index | index, direction⟩
  · rfl
  · exact isSound_ofTagged_ofNat h "group" direction.name
  · exact isSound_ofTagged_ofNat h "metric" direction.name

/-- What is written reads back. -/
theorem ofJson?_toJson (h : s.FitsWord) : ofJson? s.toJson = some s := by
  rcases s with ⟨field, direction⟩ | ⟨index | index, direction⟩
  · cases direction <;> rfl
  · have hindex : (ofNat index).natural? = some index := if_pos h
    change ((ofNat index).natural?.map SortTarget.group).bind (fun target =>
      (Direction.ofName? direction.name).bind fun direction => some (agg target direction)) = _
    rw [hindex, Direction.ofName?_name]
    rfl
  · have hindex : (ofNat index).natural? = some index := if_pos h
    change ((ofNat index).natural?.map SortTarget.metric).bind (fun target =>
      (Direction.ofName? direction.name).bind fun direction => some (agg target direction)) = _
    rw [hindex, Direction.ofName?_name]
    rfl

theorem lt_of_natural? {index : Nat} (h : value.natural? = some index) : index < Nat.pow 2 64 := by
  unfold natural? at h
  split at h
  · unfold Numeral.toUInt64? at h
    split at h
    · split at h
      · cases h
        assumption
      · cases h
    · cases h
  · cases h

theorem fitsWord_of_target? {members : List (String × Json)} {target : SortTarget}
    (h : target? members = some target) (direction : Direction) :
    (agg target direction).FitsWord := by
  unfold target? at h
  split at h
  · obtain ⟨index, hindex, rfl⟩ := Option.map_eq_some_iff.mp h
    have hlt := lt_of_natural? hindex
    split
    · exact hlt
    · exact hlt
  · cases h

theorem fitsWord_of_ofJson? (h : ofJson? value = some s) : s.FitsWord := by
  obtain ⟨⟨tag, body⟩, -, h⟩ := Option.bind_eq_some_iff.mp h
  obtain ⟨name, -, h⟩ := Option.bind_eq_some_iff.mp h
  split at h
  · obtain ⟨r, -, h⟩ := Option.bind_eq_some_iff.mp h
    obtain ⟨field, -, h⟩ := Option.bind_eq_some_iff.mp h
    obtain ⟨direction, -, h⟩ := Option.bind_eq_some_iff.mp h
    cases h
    trivial
  · obtain ⟨members, -, h⟩ := Option.bind_eq_some_iff.mp h
    obtain ⟨r, -, h⟩ := Option.bind_eq_some_iff.mp h
    obtain ⟨target, htarget, h⟩ := Option.bind_eq_some_iff.mp h
    obtain ⟨direction, -, h⟩ := Option.bind_eq_some_iff.mp h
    cases h
    exact fitsWord_of_target? htarget direction
  · cases h

/-- A sort reads back from its text. -/
theorem read?_render (h : s.FitsWord) : read? s.toJson.render = some s := by
  rw [read?, readTagged?_render (isSound_toJson h), ofJson?_toJson h]

theorem fitsWord_of_read? {text : String} (h : read? text = some s) : s.FitsWord := by
  obtain ⟨value, -, h⟩ := Option.bind_eq_some_iff.mp h
  split at h
  · exact fitsWord_of_ofJson? h
  · cases h

end SortClause

/-! ## Reading, writing and reading again -/

/-- Filters within the limit and sorts read back from their texts. A sort that was read does so
too, and a filter that was read, unless its text goes to the limit and the filter is written
beyond it. -/
theorem read?_render_toJson :
    (∀ f : Filter, f.toJson.depth ≤ maxDepth → Filter.read? f.toJson.render = some f) ∧
      (∀ s : SortClause, s.FitsWord → SortClause.read? s.toJson.render = some s) ∧
      (∀ (text : String) (f : Filter), Filter.read? text = some f →
        Filter.read? f.toJson.render = some f ∨
          Filter.read? f.toJson.render = none ∧ f.toJson.depth = maxDepth + 1 ∧
            ∃ value, Json.read? text = some value ∧ value.depth = maxDepth) ∧
      ∀ (text : String) (s : SortClause), SortClause.read? text = some s →
        SortClause.read? s.toJson.render = some s := by
  refine ⟨?filter, fun s => SortClause.read?_render, ?again, ?sort⟩
  case filter =>
    intro f h
    rw [Filter.read?_render, if_pos h]
  case again =>
    intro text f h
    obtain ⟨value, hvalue, hdepth, hle⟩ := Filter.depth_toJson_le_of_read? h
    rw [Filter.read?_render]
    split
    · next => exact .inl rfl
    · next hdeep =>
      have hfilter : f.toJson.depth = maxDepth + 1 := by omega
      have hlimit : value.depth = maxDepth := by omega
      exact .inr ⟨rfl, hfilter, value, hvalue, hlimit⟩
  case sort =>
    intro text s h
    exact SortClause.read?_render (SortClause.fitsWord_of_read? h)

/-- A filter of several kinds, a sort by a metric, and a leaf in another form. -/
theorem read?_render_toJson_mixed :
    let filter : Filter :=
      .all [.not (.leaf ⟨.isIn, "größe", .string, ["a\"b", "\u0001"]⟩), .any []]
    let sort : SortClause := .agg (.metric 1) .descending
    let text := (ofTagged "eq" [("value", ofNat 1), ("field_path", ofString "a")]).render
    let leaf : Filter := .leaf ⟨.eq, "a", .unknown, ["1"]⟩
    Filter.read? filter.toJson.render = some filter ∧
      SortClause.read? sort.toJson.render = some sort ∧
      Filter.read? text = some leaf ∧ Filter.read? leaf.toJson.render = some leaf := by
  intro filter sort text leaf
  have hsort : sort.FitsWord := by
    change 1 < Nat.pow 2 64
    decide
  have hsound : (ofTagged "eq" [("value", ofNat 1), ("field_path", ofString "a")]).isSound 0 := by
    rfl
  have hleaf : Filter.read? text = some leaf := by
    rw [Filter.read?, readTagged?_render hsound]
    rfl
  have hfilter : filter.toJson.depth ≤ maxDepth := by decide
  have hwritten : ¬ leaf.toJson.depth = maxDepth + 1 := by decide
  have hagain := read?_render_toJson.2.2.1 text leaf hleaf
  refine ⟨read?_render_toJson.1 filter hfilter, read?_render_toJson.2.1 sort hsort, hleaf, ?_⟩
  rcases hagain with h | ⟨-, hdepth, -⟩
  · exact h
  · exact absurd hdepth hwritten

namespace Filter

/-- What is written of a negation. -/
def negation (value : Json) : Json :=
  ofTagged "not" [("filter", value)]

theorem toJson_iterate_not (f : Filter) (n : Nat) :
    (Filter.not^[n] f).toJson = negation^[n] f.toJson := by
  induction n with
  | zero => rfl
  | succ n ih =>
    rw [Function.iterate_succ_apply', Function.iterate_succ_apply', ← ih]
    rfl

theorem depth_iterate_negation (value : Json) (n : Nat) :
    (negation^[n] value).depth = value.depth + n := by
  induction n with
  | zero => rfl
  | succ n ih => rw [Function.iterate_succ_apply', negation, depth_ofTagged, ih, Nat.add_assoc]

theorem isSoundWithin_iterate_negation (value : Json) (d n : Nat) :
    (negation^[n] value).isSoundWithin (d + n) = value.isSoundWithin d := by
  induction n with
  | zero => rfl
  | succ n ih =>
    rw [Function.iterate_succ_apply', negation, ← Nat.add_assoc, isSoundWithin_ofTagged, ih]

theorem ofJsonWithin?_iterate_negation {depth : Nat} {value : Json} {f : Filter}
    (h : ∀ inner, ofJsonWithin? depth inner value = some f) (n : Nat) (inner : Bool) :
    ofJsonWithin? (depth + n) inner (negation^[n] value) = some (Filter.not^[n] f) := by
  induction n generalizing inner with
  | zero => exact h inner
  | succ n ih =>
    rw [Function.iterate_succ_apply', Function.iterate_succ_apply', negation, ← Nat.add_assoc,
      ofJsonWithin?_not, ih]
    rfl

/-- The text of 126 negations of a leaf with a single literal is nested as deep as may be, and the
literal is written as a list. -/
theorem read?_negations_eq_none :
    let text := (negation^[126] (ofTagged "eq"
      [("field_path", ofString "a"), ("value", ofString "1")])).render
    let filter := Filter.not^[126] (.leaf ⟨.eq, "a", .unknown, ["1"]⟩)
    Filter.read? text = some filter ∧ Filter.read? filter.toJson.render = none := by
  intro text filter
  constructor
  · have hsound := isSoundWithin_iterate_negation
      (ofTagged "eq" [("field_path", ofString "a"), ("value", ofString "1")]) 1 126
    have hleaf (inner : Bool) : ofJsonWithin? 1 inner
        (ofTagged "eq" [("field_path", ofString "a"), ("value", ofString "1")]) =
          some (.leaf ⟨.eq, "a", .unknown, ["1"]⟩) := rfl
    have hread := ofJsonWithin?_iterate_negation hleaf 126 false
    rw [read?, readTagged?_render hsound]
    exact hread
  · have hdepth : filter.toJson.depth = 128 := by
      rw [toJson_iterate_not, depth_iterate_negation]
      rfl
    rw [read?_render, if_neg (by rw [hdepth]; decide)]

end Filter

end PagedQuery
