import PagedQuery.Proofs.Json.Building
import PagedQuery.Proofs.Json.Reordering
import PagedQuery.Proofs.Json.Soundness
import PagedQuery.Proofs.Request.Fields

/-!
# The order of members in requests

Requests look for their fields by key, so the order in which a text writes the
members of its objects does not matter, with one exception: what an aggregate
sort refers to is read from the first member that names a list of the request.

* `Filter.ignoresOrder`, `Group.ignoresOrder`, `Metric.ignoresOrder`, `Stat.ignoresOrder`;
* `SortClause.NamesOneList`: sorts in which one member at most names a list;
* `SortClause.ofJson?_eq_of_reordered`, `SortClause.sameButTarget_of_reordered`;
* `Request.read?_of_reordered`: two texts of the same objects, whatever their order.
-/

namespace PagedQuery

open Json

namespace Json.IgnoresOrder

variable {α : Type} {decode : Json → Option α}

theorem natural? : IgnoresOrder natural? :=
  of_scalar (fun _ _ => rfl) fun _ _ => rfl

theorem binary64? : IgnoresOrder Binary64.ofJson? :=
  of_scalar (fun _ _ => rfl) fun _ _ => rfl

theorem list? (h : IgnoresOrder decode) : IgnoresOrder (list? decode) := by
  intro value value' hvalue
  cases hvalue with
  | refl => rfl
  | array hitems => exact mapM_eq_of_forall₂ (fun item _ => h item) hitems.forall₂
  | object hmembers hperm => rfl

theorem taggedList? (h : IgnoresOrder decode) (outer : Nat) :
    IgnoresOrder (taggedList? outer decode) := by
  intro value value' hvalue
  rw [Json.taggedList?, Json.taggedList?, isSound_congr hvalue, h.list? value value' hvalue]

theorem literal? : IgnoresOrder literal? :=
  of_scalar (fun _ _ => rfl) fun _ _ => rfl

theorem literals? : IgnoresOrder literals? := by
  intro value value' hvalue
  cases hvalue with
  | refl => rfl
  | array hitems => exact mapM_eq_of_forall₂ (fun item _ => literal? item) hitems.forall₂
  | object hmembers hperm => rfl

end Json.IgnoresOrder

/-! ## Filters -/

theorem FilterKind.ignoresOrder (inner : Bool) : IgnoresOrder (FilterKind.ofTag? inner) :=
  .of_scalar (fun _ _ => rfl) fun _ _ => rfl

theorem Leaf.ignoresOrder (op : LeafOp) : IgnoresOrder (Leaf.ofJson? op) := by
  refine .record _ fun r r' h => ?_
  rw [h.required?_eq .string?, h.orDefault?_eq (.bind .string? FieldType.read?),
    h.orDefault?_eq .literals?]

/-- A filter of which at most `depth` stand inside each other is read alike, by induction on the
depth. -/
theorem Filter.ofJsonWithin?_ignoresOrder (depth : Nat) (inner : Bool) :
    IgnoresOrder (Filter.ofJsonWithin? depth inner) := by
  induction depth generalizing inner with
  | zero => exact fun _ _ _ => rfl
  | succ depth ih =>
    intro value value' hvalue
    rw [ofJsonWithin?, ofJsonWithin?]
    refine bind_eq_of_rel (tagged?_rel hvalue) ?_
    rintro ⟨tag, body⟩ ⟨tag', body'⟩ ⟨htag, hbody⟩
    have hkind := FilterKind.ignoresOrder inner tag tag' htag
    simp only [hkind]
    cases FilterKind.ofTag? inner tag' with
    | none => rfl
    | some kind =>
      cases kind with
      | all =>
        refine IgnoresOrder.record [["filters"]] (fun r r' h => ?_) body body' hbody
        rw [h.required?_eq (.list? (ih true))]
      | any =>
        refine IgnoresOrder.record [["filters"]] (fun r r' h => ?_) body body' hbody
        rw [h.required?_eq (.list? (ih true))]
      | not =>
        refine IgnoresOrder.record [["filter"]] (fun r r' h => ?_) body body' hbody
        rw [h.required?_eq (ih true)]
      | leaf op => exact congrArg (Option.map Filter.leaf) (Leaf.ignoresOrder op body body' hbody)

theorem Filter.ignoresOrder : IgnoresOrder Filter.ofJson? :=
  Filter.ofJsonWithin?_ignoresOrder maxDepth false

/-! ## Groups, metrics and statistics -/

theorem Group.ignoresOrder : IgnoresOrder Group.ofJson? := by
  intro value value' hvalue
  refine bind_eq_of_rel (tagged?_rel hvalue) ?_
  rintro ⟨tag, body⟩ ⟨tag', body'⟩ ⟨htag, hbody⟩
  refine bind_eq_of_rel (IgnoresOrder.string?.rel htag) ?_
  rintro name _ rfl
  split
  · refine bind_eq_of_rel (Record.of?_rel hbody _) fun r r' h => ?_
    rw [h.required?_eq .string?]
  · refine bind_eq_of_rel (Record.of?_rel hbody _) fun r r' h => ?_
    have hunit : IgnoresOrder fun unit =>
        (unit.choice? isNullOrEmpty).bind Granularity.ofName? :=
      .bind (.choice? fun _ _ => isNullOrEmpty_congr) Granularity.ofName?
    rw [h.required?_eq .string?, h.required?_eq hunit]
  · refine bind_eq_of_rel (Record.of?_rel hbody _) fun r r' h => ?_
    rw [h.required?_eq .string?, h.required?_eq .binary64? "start",
      h.required?_eq .binary64? "end", h.required?_eq .binary64? "bucket_size"]
  · rfl

theorem Metric.ofField?_ignoresOrder (make : String → Metric) :
    IgnoresOrder (Metric.ofField? make) := by
  refine .record _ fun r r' h => ?_
  rw [h.required?_eq .string?]

theorem Metric.ignoresOrder : IgnoresOrder Metric.ofJson? := by
  intro value value' hvalue
  refine bind_eq_of_rel (tagged?_rel hvalue) ?_
  rintro ⟨tag, body⟩ ⟨tag', body'⟩ ⟨htag, hbody⟩
  refine bind_eq_of_rel (IgnoresOrder.string?.rel htag) ?_
  rintro name _ rfl
  split
  case h_5 =>
    refine bind_eq_of_rel (Record.of?_rel hbody _) fun r r' h => ?_
    rw [h.orDefault?_eq (.orNull? .string?)]
  case h_7 =>
    refine bind_eq_of_rel (Record.of?_rel hbody _) fun r r' h => ?_
    rw [h.required?_eq .string? "field", h.required?_eq .string? "time_field"]
  case h_8 =>
    refine bind_eq_of_rel (Record.of?_rel hbody _) fun r r' h => ?_
    rw [h.required?_eq .string?, h.required?_eq .binary64?]
  case h_9 =>
    refine bind_eq_of_rel (Record.of?_rel hbody _) fun r r' h => ?_
    rw [h.required?_eq .string?, h.required?_eq .binary64?]
  case h_10 =>
    refine bind_eq_of_rel (Record.of?_rel hbody _) fun r r' h => ?_
    rw [h.required?_eq .string?, h.orDefault?_eq (.orNull? .string?)]
  case h_11 => rfl
  all_goals exact Metric.ofField?_ignoresOrder _ body body' hbody

theorem Stat.ignoresOrder : IgnoresOrder Stat.ofJson? := by
  refine .record _ fun r r' h => ?_
  have hkind : IgnoresOrder fun kind => (kind.choice? isNull).bind StatKind.ofName? :=
    .bind (.choice? fun _ _ => isNull_congr) StatKind.ofName?
  rw [h.required?_eq .string?, h.required?_eq hkind]

/-! ## Sorts -/

namespace SortClause

/-- Whether one member of the sort at most names a list of the request, which is so for every
sort that the documentation describes. -/
def NamesOneList (sort : Json) : Prop :=
  ∀ tag body members, sort.tagged? = some (tag, body) → body.members? = some members →
    (withKeys ["group", "metric"] members).length ≤ 1

/-- The same sorts, but for what aggregate sorts refer to. -/
inductive SameButTarget : SortClause → SortClause → Prop where
  | refl (sort : SortClause) : SameButTarget sort sort
  | agg (target target' : SortTarget) (direction : Direction) :
    SameButTarget (.agg target direction) (.agg target' direction)

variable {sort sort' body body' : Json} {members members' : List (String × Json)}
  {isNothing : Json → Bool}

theorem direction?_eq {r r' : Record} (h : Record.Reordered r r') :
    direction? isNullOrEmpty r = direction? isNullOrEmpty r' := by
  have hdirection : IgnoresOrder fun direction =>
      (direction.choice? isNullOrEmpty).bind Direction.ofName? :=
    .bind (.choice? fun _ _ => isNullOrEmpty_congr) Direction.ofName?
  exact h.orDefault?_eq hdirection "direction" .ascending

theorem rawOfJson?_ignoresOrder : IgnoresOrder (rawOfJson? isNullOrEmpty) := by
  refine .record _ fun r r' h => ?_
  rw [h.required?_eq .string?, direction?_eq h]

theorem target?_eq (h : SameMembers members members')
    (hone : (withKeys ["group", "metric"] members).length ≤ 1) :
    target? members = target? members' := by
  have hlists : SameMembers (withKeys ["group", "metric"] members)
      (withKeys ["group", "metric"] members') :=
    h.filter fun key => ["group", "metric"].contains key
  have hlength := hlists.length_eq
  unfold target?
  generalize withKeys ["group", "metric"] members = found at hlists hlength hone
  generalize withKeys ["group", "metric"] members' = found' at hlists hlength
  match found, hone with
  | [], _ =>
    obtain rfl := List.length_eq_zero_iff.mp hlength.symm
    rfl
  | [(list, index)], _ =>
    obtain ⟨⟨list', index'⟩, rfl, hlist, hindex⟩ := hlists.eq_singleton
    obtain rfl : list = list' := hlist
    exact congrArg (Option.map _) (IgnoresOrder.natural? index index' hindex)

theorem aggOfJson?_eq (h : Reordered body body')
    (hone : ∀ members, body.members? = some members →
      (withKeys ["group", "metric"] members).length ≤ 1) :
    aggOfJson? isNullOrEmpty body = aggOfJson? isNullOrEmpty body' := by
  have hmembers := members?_rel h
  unfold aggOfJson?
  generalize body.members? = found at hmembers hone
  generalize body'.members? = found' at hmembers
  cases hmembers with
  | none => rfl
  | @some members members' hsame =>
    change (Record.ofMembers? [["direction"]] members).bind _ =
      (Record.ofMembers? [["direction"]] members').bind _
    refine bind_eq_of_rel (Record.ofMembers?_rel hsame [["direction"]]) fun r r' hr => ?_
    rw [target?_eq hsame (hone members rfl), direction?_eq hr]

theorem eq_agg_of_aggOfJson? {s : SortClause} (h : aggOfJson? isNothing body = some s) :
    ∃ members r target direction, body.members? = some members ∧
      Record.ofMembers? [["direction"]] members = some r ∧
      direction? isNothing r = some direction ∧ s = .agg target direction := by
  obtain ⟨members, hmembers, h⟩ := Option.bind_eq_some_iff.mp h
  obtain ⟨r, hr, h⟩ := Option.bind_eq_some_iff.mp h
  obtain ⟨target, -, h⟩ := Option.bind_eq_some_iff.mp h
  obtain ⟨direction, hdirection, h⟩ := Option.bind_eq_some_iff.mp h
  exact ⟨members, r, target, direction, hmembers, hr, hdirection, (Option.some.inj h).symm⟩

/-- Aggregate sorts of the same members have the same direction. -/
theorem sameButTarget_of_aggOfJson? {s s' : SortClause} (h : Reordered body body')
    (hs : aggOfJson? isNullOrEmpty body = some s)
    (hs' : aggOfJson? isNullOrEmpty body' = some s') : SameButTarget s s' := by
  obtain ⟨members, r, target, direction, hmembers, hr, hdirection, rfl⟩ := eq_agg_of_aggOfJson? hs
  obtain ⟨members', r', target', direction', hmembers', hr', hdirection', rfl⟩ :=
    eq_agg_of_aggOfJson? hs'
  have hsame := members?_rel h
  rw [hmembers, hmembers'] at hsame
  have hsame := (Option.rel_some_some.mp hsame)
  have hrecords := Record.ofMembers?_rel hsame [["direction"]]
  rw [hr, hr'] at hrecords
  have hdirections := direction?_eq (Option.rel_some_some.mp hrecords)
  rw [hdirection, hdirection'] at hdirections
  cases hdirections
  exact .agg target target' direction

/-- Whether a sort is read as an aggregate sort does not depend on the order of its members, and
only aggregate sorts may be read differently. -/
theorem ofJson?_eq_or_agg (h : Reordered sort sort') :
    ofJson? sort = ofJson? sort' ∨
      ∃ tag body body', sort.tagged? = some (tag, body) ∧ Reordered body body' ∧
        ofJson? sort = aggOfJson? isNullOrEmpty body ∧
        ofJson? sort' = aggOfJson? isNullOrEmpty body' := by
  have htagged := tagged?_rel h
  unfold ofJson?
  generalize sort.tagged? = found at htagged
  generalize sort'.tagged? = found' at htagged
  cases htagged with
  | none => exact .inl rfl
  | @some tagged tagged' hparts =>
    obtain ⟨tag, body⟩ := tagged
    obtain ⟨tag', body'⟩ := tagged'
    obtain ⟨htag, hbody⟩ := hparts
    have hname := IgnoresOrder.string? tag tag' htag
    simp only [Option.bind_eq_bind, Option.bind_some, hname]
    cases tag'.string? with
    | none => exact .inl rfl
    | some name =>
      simp only [Option.bind_some]
      split
      · exact .inl (rawOfJson?_ignoresOrder body body' hbody)
      · exact .inr ⟨tag, body, body', rfl, hbody, rfl, rfl⟩
      · exact .inl rfl

theorem ofJson?_eq_of_reordered (h : Reordered sort sort') (hone : NamesOneList sort) :
    ofJson? sort = ofJson? sort' := by
  rcases ofJson?_eq_or_agg h with heq | ⟨tag, body, body', htagged, hbody, heq, heq'⟩
  · exact heq
  · rw [heq, heq']
    exact aggOfJson?_eq hbody fun members => hone tag body members htagged

theorem sameButTarget_of_reordered {s s' : SortClause} (h : Reordered sort sort')
    (hs : ofJson? sort = some s) (hs' : ofJson? sort' = some s') : SameButTarget s s' := by
  rcases ofJson?_eq_or_agg h with heq | ⟨tag, body, body', -, hbody, heq, heq'⟩
  · rw [heq, hs'] at hs
    cases hs
    exact .refl _
  · rw [heq] at hs
    rw [heq'] at hs'
    exact sameButTarget_of_aggOfJson? hbody hs hs'

variable {value value' : Json}

theorem taggedList?_eq (h : Reordered value value')
    (hone : ∀ items, value.items? = some items → ∀ sort ∈ items, NamesOneList sort)
    (outer : Nat) : taggedList? outer ofJson? value = taggedList? outer ofJson? value' := by
  rw [taggedList?, taggedList?, isSound_congr h]
  congr 1
  cases h with
  | refl => rfl
  | @array items items' hitems =>
    refine mapM_eq_of_forall₂ (fun sort hsort sort' h => ?_) hitems.forall₂
    exact ofJson?_eq_of_reordered h (hone items rfl sort hsort)
  | object hmembers hperm => rfl

theorem forall₂_of_taggedList? {outer : Nat} {sorts sorts' : List SortClause}
    (h : Reordered value value') (hsorts : taggedList? outer ofJson? value = some sorts)
    (hsorts' : taggedList? outer ofJson? value' = some sorts') :
    List.Forall₂ SameButTarget sorts sorts' := by
  obtain ⟨items, rfl, hread⟩ := items_of_taggedList? hsorts
  obtain ⟨items', rfl, hread'⟩ := items_of_taggedList? hsorts'
  have hitems : List.Forall₂ Reordered items items' := by
    cases h with
    | refl => exact List.forall₂_same.mpr fun item _ => .refl item
    | array hitems => exact hitems.forall₂
  exact forall₂_of_mapM (fun _ _ _ _ h => sameButTarget_of_reordered h) hitems hread hread'

end SortClause

/-! ## Requests -/

namespace Request

variable {value value' : Json} {request request' : Request}

theorem kind_ignoresOrder : IgnoresOrder RequestKind.ofJson? :=
  .bind (.choice? fun _ _ => isNull_congr) RequestKind.ofName?

/-- Requests that are read from records with the same fields, but for what aggregate sorts refer
to. -/
theorem ReadFrom.eq_of_reordered {r r' : Record} (hr : Record.Reordered r r')
    (h : ReadFrom r request) (h' : ReadFrom r' request') :
    request' = { request with sorts := request'.sorts } := by
  have hkind := h.kind
  have hfields := h.fields
  have hfilters := h.filters
  have hgroups := h.groups
  have hmetrics := h.metrics
  have hstats := h.stats
  have hoffset := h.offset
  have hlimit := h.limit
  have hdistinct := h.distinct
  rw [hr.orDefault?_eq (.orNull? kind_ignoresOrder), h'.kind] at hkind
  rw [hr.orDefault?_eq (.list? .string?), h'.fields] at hfields
  rw [hr.orDefault?_eq (.taggedList? Filter.ignoresOrder 1), h'.filters] at hfilters
  rw [hr.orDefault?_eq (.taggedList? Group.ignoresOrder 1), h'.groups] at hgroups
  rw [hr.orDefault?_eq (.taggedList? Metric.ignoresOrder 1), h'.metrics] at hmetrics
  rw [hr.orDefault?_eq (.list? Stat.ignoresOrder), h'.stats] at hstats
  rw [hr.nullable?_eq .natural?, h'.offset] at hoffset
  rw [hr.nullable?_eq .natural?, h'.limit] at hlimit
  rw [hr.orDefault?_eq .bool?, h'.distinct] at hdistinct
  cases request
  cases request'
  cases hkind
  cases hfields
  cases hfilters
  cases hgroups
  cases hmetrics
  cases hstats
  cases hoffset
  cases hlimit
  cases hdistinct
  rfl

/-- The sorts of the value name one list each. -/
def SortsNameOneList (value : Json) : Prop :=
  ∀ r sorts items, Record.of? shape value = some r → r.get? "sorts" = some sorts →
    sorts.items? = some items → ∀ sort ∈ items, SortClause.NamesOneList sort

theorem ofJson?_eq_of_reordered (h : Reordered value value') (hone : SortsNameOneList value) :
    ofJson? value = ofJson? value' := by
  have hrecords := Record.of?_rel h shape
  unfold SortsNameOneList at hone
  unfold ofJson?
  generalize Record.of? shape value = found at hrecords hone
  generalize Record.of? shape value' = found' at hrecords
  cases hrecords with
  | none => rfl
  | @some r r' hr =>
    have hsorts : r.orDefault? "sorts" [] (taggedList? 1 SortClause.ofJson?) =
        r'.orDefault? "sorts" [] (taggedList? 1 SortClause.ofJson?) := by
      refine hr.orDefault?_eq_of_get? (fun sorts sorts' hget h => ?_) []
      exact SortClause.taggedList?_eq h (fun items => hone r sorts items rfl hget) 1
    rw [Option.bind_eq_bind, Option.bind_eq_bind, Option.bind_some, Option.bind_some,
      hr.orDefault?_eq (.orNull? kind_ignoresOrder), hr.orDefault?_eq (.list? .string?),
      hr.orDefault?_eq (.taggedList? Filter.ignoresOrder 1),
      hr.orDefault?_eq (.taggedList? Group.ignoresOrder 1),
      hr.orDefault?_eq (.taggedList? Metric.ignoresOrder 1),
      hr.orDefault?_eq (.list? Stat.ignoresOrder), hsorts, hr.nullable?_eq .natural? "offset",
      hr.nullable?_eq .natural? "limit", hr.orDefault?_eq .bool?]

theorem sameButTarget_of_reordered (h : Reordered value value')
    (hrequest : ofJson? value = some request) (hrequest' : ofJson? value' = some request') :
    request' = { request with sorts := request'.sorts } ∧
      List.Forall₂ SortClause.SameButTarget request.sorts request'.sorts := by
  obtain ⟨r, hfound, hread⟩ := readFrom_of_ofJson? hrequest
  obtain ⟨r', hfound', hread'⟩ := readFrom_of_ofJson? hrequest'
  have hr := Record.of?_rel h shape
  rw [hfound, hfound'] at hr
  have hr := Option.rel_some_some.mp hr
  refine ⟨hread.eq_of_reordered hr hread', ?_⟩
  have hsorts := hread.sorts
  have hsorts' := hread'.sorts
  have hget := Record.get?_rel hr "sorts"
  unfold Record.orDefault? at hsorts hsorts'
  generalize r.get? "sorts" = found at hget hsorts
  generalize r'.get? "sorts" = found' at hget hsorts'
  cases hget with
  | none =>
    rw [← Option.some.inj hsorts, ← Option.some.inj hsorts']
    exact .nil
  | some hvalue => exact SortClause.forall₂_of_taggedList? hvalue hsorts hsorts'

/-- Two texts of the same objects, with members in different orders at any depth, are both refused
or give the same request, provided no sort has two members that name a list. Whatever the sorts
have, two requests that are accepted differ at most in what aggregate sorts refer to. -/
theorem read?_of_reordered {text text' : String} (htext : Json.read? text = some value)
    (htext' : Json.read? text' = some value') (h : Reordered value value') :
    (SortsNameOneList value → read? text = read? text') ∧
      ∀ request request', read? text = some request → read? text' = some request' →
        request' = { request with sorts := request'.sorts } ∧
          List.Forall₂ SortClause.SameButTarget request.sorts request'.sorts := by
  unfold read?
  rw [htext, htext']
  refine ⟨ofJson?_eq_of_reordered h, ?_⟩
  intro request request' hrequest hrequest'
  exact sameButTarget_of_reordered h hrequest hrequest'

/-- A filter in a filter and an aggregate sort, each object with two members swapped. -/
theorem read?_of_reordered_swapped :
    let leaf := ofMembers
      [("type", ofString "eq"), ("field_path", ofString "site"), ("value", ofNat 1)]
    let leaf' := ofMembers
      [("field_path", ofString "site"), ("type", ofString "eq"), ("value", ofNat 1)]
    let sort := ofMembers [("type", ofString "agg"), ("group", ofNat 0)]
    let sort' := ofMembers [("group", ofNat 0), ("type", ofString "agg")]
    let value := ofMembers
      [("filters", .array [ofMembers [("type", ofString "not"), ("filter", leaf)]]),
        ("sorts", .array [sort])]
    let value' := ofMembers
      [("sorts", .array [sort']),
        ("filters", .array [ofMembers [("filter", leaf'), ("type", ofString "not")]])]
    let request : Request := { empty with
      filters := [.not (.leaf ⟨.eq, "site", .unknown, ["1"]⟩)]
      sorts := [.agg (.group 0) .ascending] }
    Reordered value value' ∧ SortsNameOneList value ∧ read? value.render = some request ∧
      read? value'.render = some request := by
  intro leaf leaf' sort sort' value value' request
  have hleaf : Reordered leaf leaf' :=
    .object (.cons (.refl _) (.cons (.refl _) (.cons (.refl _) .nil))) (.swap _ _ _)
  have hsort : Reordered sort sort' :=
    .object (.cons (.refl _) (.cons (.refl _) .nil)) (.swap _ _ _)
  have hfilter : Reordered (ofMembers [("type", ofString "not"), ("filter", leaf)])
      (ofMembers [("filter", leaf'), ("type", ofString "not")]) :=
    .object (.cons (.refl _) (.cons hleaf .nil)) (.swap _ _ _)
  have hvalue : Reordered value value' :=
    .object (.cons (.array (.cons hfilter .nil)) (.cons (.array (.cons hsort .nil)) .nil))
      (.swap _ _ _)
  have hone : SortsNameOneList value := by
    intro r sorts items hr hget hitems
    cases hr
    cases hget
    cases hitems
    intro written hwritten tag body members htagged hmembers
    cases List.mem_singleton.mp hwritten
    cases htagged
    cases hmembers
    decide
  have htext : Json.read? value.render = some value :=
    Json.read?_render (hasText_of_isSoundWithin (d := 5) _ rfl)
  have htext' : Json.read? value'.render = some value' :=
    Json.read?_render (hasText_of_isSoundWithin (d := 5) _ rfl)
  have hread : read? value.render = some request := by
    rw [read?, htext]
    rfl
  refine ⟨hvalue, hone, hread, ?_⟩
  rw [← (read?_of_reordered htext htext' hvalue).1 hone]
  exact hread

/-- An aggregate sort with a member for either list is a sort by the group or by the metric,
whichever is written first. -/
theorem read?_ne_of_group_and_metric :
    let value := ofMembers [("sorts", .array [ofMembers
      [("type", ofString "agg"), ("group", ofNat 0), ("metric", ofNat 1)]])]
    let value' := ofMembers [("sorts", .array [ofMembers
      [("type", ofString "agg"), ("metric", ofNat 1), ("group", ofNat 0)]])]
    Reordered value value' ∧ Json.read? value.render = some value ∧
      Json.read? value'.render = some value' ∧
      read? value.render = some { empty with sorts := [.agg (.group 0) .ascending] } ∧
      read? value'.render = some { empty with sorts := [.agg (.metric 1) .ascending] } ∧
      read? value.render ≠ read? value'.render := by
  intro value value'
  have hsort : Reordered
      (ofMembers [("type", ofString "agg"), ("group", ofNat 0), ("metric", ofNat 1)])
      (ofMembers [("type", ofString "agg"), ("metric", ofNat 1), ("group", ofNat 0)]) :=
    .object (.cons (.refl _) (.cons (.refl _) (.cons (.refl _) .nil))) (.cons _ (.swap _ _ _))
  have hvalue : Reordered value value' :=
    .object (.cons (.array (.cons hsort .nil)) .nil) (.refl _)
  have htext : Json.read? value.render = some value :=
    Json.read?_render (hasText_of_isSoundWithin (d := 3) _ rfl)
  have htext' : Json.read? value'.render = some value' :=
    Json.read?_render (hasText_of_isSoundWithin (d := 3) _ rfl)
  have hread : read? value.render =
      some { empty with sorts := [.agg (.group 0) .ascending] } := by
    rw [read?, htext]
    rfl
  have hread' : read? value'.render =
      some { empty with sorts := [.agg (.metric 1) .ascending] } := by
    rw [read?, htext']
    rfl
  refine ⟨hvalue, htext, htext', hread, hread', ?_⟩
  rw [hread, hread']
  exact nofun

end Request

end PagedQuery
