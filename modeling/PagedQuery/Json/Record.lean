import PagedQuery.Json.Basic

/-!
# Records and choices in JSON

A record is written as an object, whose members may stand in any order, or as
an array of its fields in the order of their declaration. A choice between
kinds of records has a tag: the member `type` of an object or the first item
of an array.

* `Json.Shape`, `Json.Record`: the fields that a record may have, and those it has;
* `Record.required?`, `Record.orDefault?`, `Record.nullable?`: the value of a field;
* `Json.tagged?`: a tag and what is tagged;
* `Json.choice?`: a name that stands for one of several choices.
-/

namespace PagedQuery.Json

/-- The keys of each field of a kind of record. The first key of a field is its name. -/
abbrev Shape := List (List String)

/-- The fields that are there, by name. -/
structure Record where
  /-- Whether the fields were found by name, not by position. -/
  named : Bool
  fields : List (String × Json)

/-- The members of an object whose keys are all Unicode text. -/
def members? : Json → Option (List (String × Json))
  | .object members => members.mapM fun (key, value) => key.map fun key => (key, value)
  | _ => none

/-- The members that have one of the keys. -/
def withKeys (keys : List String) (members : List (String × Json)) : List (String × Json) :=
  members.filter fun member => keys.contains member.1

namespace Record

/-- The field of the given keys, which may be missing but not repeated. -/
def field? (members : List (String × Json)) (keys : List String) :
    Option (List (String × Json)) :=
  match withKeys keys members with
  | [] => some []
  | [(_, value)] => some (keys.head?.toList.map fun name => (name, value))
  | _ => none

/-- A record of the given members, of which those of other keys do not count. -/
def ofMembers? (shape : Shape) (members : List (String × Json)) : Option Record :=
  (shape.mapM (field? members)).map fun fields => { named := true, fields := fields.flatten }

/-- A record of the given items, which may end early. -/
def ofItems? (shape : Shape) (items : List Json) : Option Record :=
  if items.length ≤ shape.length then
    some { named := false, fields := (shape.filterMap List.head?).zip items }
  else none

/-- The record that a value writes. -/
def of? (shape : Shape) (value : Json) : Option Record :=
  match value with
  | .array items => ofItems? shape items
  | value => value.members?.bind (ofMembers? shape)

/-- The value of a field. -/
def get? (r : Record) (name : String) : Option Json :=
  (r.fields.find? fun field => field.1 = name).map Prod.snd

/-- A field that must be there. -/
def required? (r : Record) (name : String) (decode : Json → Option α) : Option α :=
  (r.get? name).bind decode

/-- A field with a default. -/
def orDefault? (r : Record) (name : String) (default : α) (decode : Json → Option α) :
    Option α :=
  match r.get? name with
  | some value => decode value
  | none => some default

/-- A value that may be null. -/
def orNull? (decode : Json → Option α) : Json → Option (Option α)
  | .null => some none
  | value => (decode value).map some

/-- A field that may be null, or missing where fields have names. -/
def nullable? (r : Record) (name : String) (decode : Json → Option α) : Option (Option α) :=
  match r.get? name with
  | some value => orNull? decode value
  | none => if r.named then some none else none

end Record

/-! ## Tags -/

/-- The key of tags. -/
def tagKey : String := "type"

/-- A tag and what is tagged: the object without the tag, or the items after it. -/
def tagged? : Json → Option (Json × Json)
  | .object members =>
    match members.filter fun member => member.1 = some tagKey with
    | [(_, tag)] => some (tag, .object (members.filter fun member => member.1 ≠ some tagKey))
    | _ => none
  | .array (tag :: items) => some (tag, .array items)
  | _ => none

/-! ## Choices -/

/-- Nothing at all. -/
def isNull : Json → Bool
  | .null => true
  | _ => false

/-- Nothing, or a record without fields. -/
def isNullOrEmpty : Json → Bool
  | .null => true
  | .object [] => true
  | _ => false

/-- The name of a choice that holds nothing: a string, or an object with that name as its only
key and a value that counts as nothing. -/
def choice? (isNothing : Json → Bool) : Json → Option String
  | .string text => text
  | .object [(some name, value)] => if isNothing value then some name else none
  | _ => none

/-! ## Normal form -/

/-- Puts a member in the order of keys, in place of one of the same key. -/
def insertMember (key : String) (value : Json) :
    List (Option String × Json) → List (Option String × Json)
  | [] => [(some key, value)]
  | (none, other) :: rest => (none, other) :: insertMember key value rest
  | (some known, other) :: rest =>
    if key < known then (some key, value) :: (some known, other) :: rest
    else if key = known then (some key, value) :: rest
    else (some known, other) :: insertMember key value rest

mutual

/-- The value with the members of each object in the order of their keys. The last of members
with the same key counts. -/
def keyed : Json → Json
  | .array items => .array (keyedItems items)
  | .object members => .object (keyedMembers members [])
  | value => value

def keyedItems : List Json → List Json
  | [] => []
  | item :: rest => item.keyed :: keyedItems rest

/-- Adds members in normal form to some that are in order. -/
def keyedMembers :
    List (Option String × Json) → List (Option String × Json) → List (Option String × Json)
  | [], members => members
  | (some key, value) :: rest, members =>
    keyedMembers rest (insertMember key value.keyed members)
  | (none, value) :: rest, members => keyedMembers rest ((none, value.keyed) :: members)

end

end PagedQuery.Json
