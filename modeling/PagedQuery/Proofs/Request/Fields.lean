import PagedQuery.Request.Reader

/-!
# The fields of a request

A request that was read has in each of its fields what the record has under the
name of that field, or the default.

* `Json.items_of_taggedList?`: a list of tagged values is an array;
* `Request.ReadFrom`, `Request.readFrom_of_ofJson?`: the record of a request.
-/

namespace PagedQuery

open Json

theorem Json.items_of_taggedList? {α : Type} {outer : Nat} {decode : Json → Option α} {value : Json}
    {list : List α}
    (h : taggedList? outer decode value = some list) :
    ∃ items, value = .array items ∧ items.mapM decode = some list := by
  rw [taggedList?] at h
  split at h
  · obtain ⟨items, hitems, h⟩ := Option.bind_eq_some_iff.mp h
    cases value <;> cases hitems
    exact ⟨items, rfl, h⟩
  · cases h

namespace Request

/-- The fields of the record have the values of the request. -/
structure ReadFrom (r : Record) (request : Request) : Prop where
  kind : r.orDefault? "type" none (Record.orNull? RequestKind.ofJson?) = some request.kind
  fields : r.orDefault? "fields" [] (list? string?) = some request.fields
  filters : r.orDefault? "filters" [] (taggedList? 1 Filter.ofJson?) = some request.filters
  groups : r.orDefault? "groups" [] (taggedList? 1 Group.ofJson?) = some request.groups
  metrics : r.orDefault? "metrics" [] (taggedList? 1 Metric.ofJson?) = some request.metrics
  stats : r.orDefault? "stats" [] (list? Stat.ofJson?) = some request.stats
  sorts : r.orDefault? "sorts" [] (taggedList? 1 SortClause.ofJson?) = some request.sorts
  offset : r.nullable? "offset" natural? = some request.offset
  limit : r.nullable? "limit" natural? = some request.limit
  distinct : r.orDefault? "distinct" false bool? = some request.distinct

theorem readFrom_of_ofJson? {value : Json} {request : Request} (h : ofJson? value = some request) :
    ∃ r, Record.of? shape value = some r ∧ ReadFrom r request := by
  obtain ⟨r, hr, h⟩ := Option.bind_eq_some_iff.mp h
  obtain ⟨kind, hkind, h⟩ := Option.bind_eq_some_iff.mp h
  obtain ⟨fields, hfields, h⟩ := Option.bind_eq_some_iff.mp h
  obtain ⟨filters, hfilters, h⟩ := Option.bind_eq_some_iff.mp h
  obtain ⟨groups, hgroups, h⟩ := Option.bind_eq_some_iff.mp h
  obtain ⟨metrics, hmetrics, h⟩ := Option.bind_eq_some_iff.mp h
  obtain ⟨stats, hstats, h⟩ := Option.bind_eq_some_iff.mp h
  obtain ⟨sorts, hsorts, h⟩ := Option.bind_eq_some_iff.mp h
  obtain ⟨offset, hoffset, h⟩ := Option.bind_eq_some_iff.mp h
  obtain ⟨limit, hlimit, h⟩ := Option.bind_eq_some_iff.mp h
  obtain ⟨distinct, hdistinct, h⟩ := Option.bind_eq_some_iff.mp h
  cases h
  exact ⟨r, hr, hkind, hfields, hfilters, hgroups, hmetrics, hstats, hsorts, hoffset, hlimit,
    hdistinct⟩

end Request

end PagedQuery
