import Mathlib.Data.List.Forall2
import PagedQuery.Json.Record

/-!
# The order of members

Two texts may write the members of the same objects in different orders, at any
depth. The fields of a record are found by their keys, so records that are
written in different orders have the same fields, with values that are in turn
written in different orders, and a reader that asks for fields does not notice.

* `Json.Reordered`: values that differ in the order of members alone;
* `Json.isSound_congr`: soundness does not depend on that order;
* `Json.Record.Reordered`, `Json.Record.of?_rel`: the fields of records;
* `Json.IgnoresOrder`: readers that do not depend on that order.
-/

namespace PagedQuery.Json

/-! ## Values -/

mutual

/-- The values are the same but for the order in which members are written, at any depth. -/
inductive Reordered : Json → Json → Prop where
  | refl (value : Json) : Reordered value value
  | array {items items' : List Json} (h : ItemsReordered items items') :
    Reordered (.array items) (.array items')
  | object {members between members' : List (Option String × Json)}
    (h : MembersReordered members between) (hperm : between.Perm members') :
    Reordered (.object members) (.object members')

/-- Items keep their places. -/
inductive ItemsReordered : List Json → List Json → Prop where
  | nil : ItemsReordered [] []
  | cons {item item' : Json} {rest rest' : List Json} (h : Reordered item item')
    (hrest : ItemsReordered rest rest') : ItemsReordered (item :: rest) (item' :: rest')

/-- The values of members, the members being in their places. -/
inductive MembersReordered :
    List (Option String × Json) → List (Option String × Json) → Prop where
  | nil : MembersReordered [] []
  | cons {key : Option String} {value value' : Json} {rest rest' : List (Option String × Json)}
    (h : Reordered value value') (hrest : MembersReordered rest rest') :
    MembersReordered ((key, value) :: rest) ((key, value') :: rest')

end

/-- The same key, with values that are the same but for the order of members. -/
def SameMember {κ : Type} (member member' : κ × Json) : Prop :=
  member.1 = member'.1 ∧ Reordered member.2 member'.2

/-- The same members, in any order. -/
def SameMembers {κ : Type} (members members' : List (κ × Json)) : Prop :=
  ∃ between, List.Forall₂ SameMember members between ∧ between.Perm members'

section

variable {items items' : List Json} {members members' : List (Option String × Json)}

theorem ItemsReordered.forall₂ (h : ItemsReordered items items') :
    List.Forall₂ Reordered items items' := by
  induction items generalizing items' with
  | nil =>
    cases h
    exact .nil
  | cons item rest ih =>
    cases h with
    | cons h hrest => exact .cons h (ih hrest)

theorem MembersReordered.forall₂ (h : MembersReordered members members') :
    List.Forall₂ SameMember members members' := by
  induction members generalizing members' with
  | nil =>
    cases h
    exact .nil
  | cons member rest ih =>
    cases h with
    | cons h hrest => exact .cons ⟨rfl, h⟩ (ih hrest)

theorem MembersReordered.of_forall₂ (h : List.Forall₂ SameMember members members') :
    MembersReordered members members' := by
  induction h with
  | nil => exact .nil
  | @cons member member' rest rest' hmember _ ih =>
    obtain ⟨key, value⟩ := member
    obtain ⟨key', value'⟩ := member'
    obtain ⟨rfl, hvalue⟩ : key = key' ∧ Reordered value value' := hmember
    exact .cons hvalue ih

/-- Objects with the same members, in any order. -/
theorem SameMembers.object (h : SameMembers members members') :
    Reordered (.object members) (.object members') := by
  obtain ⟨between, hsame, hperm⟩ := h
  exact .object (.of_forall₂ hsame) hperm

end

namespace SameMembers

variable {κ : Type} {members members' : List (κ × Json)} {member : κ × Json}

theorem refl (members : List (κ × Json)) : SameMembers members members :=
  ⟨members, List.forall₂_same.mpr fun _ _ => ⟨rfl, .refl _⟩, .refl _⟩

theorem length_eq (h : SameMembers members members') : members.length = members'.length := by
  obtain ⟨between, hsame, hperm⟩ := h
  exact hsame.length_eq.trans hperm.length_eq

theorem eq_singleton (h : SameMembers [member] members') :
    ∃ member', members' = [member'] ∧ SameMember member member' := by
  obtain ⟨between, hsame, hperm⟩ := h
  cases hsame with
  | cons hmember hrest =>
    cases hrest
    exact ⟨_, (List.singleton_perm.mp hperm).symm, hmember⟩

/-- The members that are chosen by their keys. -/
theorem filter (h : SameMembers members members') (keep : κ → Bool) :
    SameMembers (members.filter fun member => keep member.1)
      (members'.filter fun member => keep member.1) := by
  obtain ⟨between, hsame, hperm⟩ := h
  refine ⟨between.filter fun member => keep member.1, ?_, hperm.filter _⟩
  refine List.rel_filter ?_ hsame
  intro member member' hmember
  exact iff_of_eq (congrArg (fun key => keep key = true) hmember.1)

end SameMembers

/-! ## Soundness -/

theorem membersSoundWithin_eq_all (d : Nat) (members : List (Option String × Json)) :
    membersSoundWithin d members =
      members.all fun member => member.1.isSome && member.2.isSoundWithin d := by
  induction members with
  | nil => rfl
  | cons member rest ih => rw [membersSoundWithin, ih, List.all_cons]

mutual

theorem isSoundWithin_congr : ∀ (value : Json) {value' : Json} (d : Nat),
    Reordered value value' → value.isSoundWithin d = value'.isSoundWithin d
  | value, _, d, .refl _ => rfl
  | .array items, _, d, .array h => by
    rw [isSoundWithin, isSoundWithin, areSoundWithin_congr items _ h]
  | .object members, _, d, .object h hperm => by
    rw [isSoundWithin, isSoundWithin, membersSoundWithin_congr members _ h,
      membersSoundWithin_eq_all, membersSoundWithin_eq_all, hperm.all_eq]

theorem areSoundWithin_congr : ∀ (items : List Json) {items' : List Json} (d : Nat),
    ItemsReordered items items' → areSoundWithin d items = areSoundWithin d items'
  | [], _, _, .nil => rfl
  | item :: rest, _, d, .cons h hrest => by
    rw [areSoundWithin, areSoundWithin, isSoundWithin_congr item d h,
      areSoundWithin_congr rest d hrest]

theorem membersSoundWithin_congr : ∀ (members : List (Option String × Json))
    {members' : List (Option String × Json)} (d : Nat), MembersReordered members members' →
    membersSoundWithin d members = membersSoundWithin d members'
  | [], _, _, .nil => rfl
  | (_, value) :: rest, _, d, .cons h hrest => by
    rw [membersSoundWithin, membersSoundWithin, isSoundWithin_congr value d h,
      membersSoundWithin_congr rest d hrest]

end

/-- Whether a value is sound does not depend on the order of members. -/
theorem isSound_congr {value value' : Json} (h : Reordered value value') (outer : Nat) :
    value.isSound outer = value'.isSound outer :=
  isSoundWithin_congr value _ h

/-! ## Lists of results -/

section

variable {α β γ δ : Type} {R : α → β → Prop} {S : γ → δ → Prop}

/-- Options with related values stay related under functions that keep to the relation. -/
theorem map_rel {f : α → γ} {g : β → δ} {a? : Option α} {b? : Option β} (h : Option.Rel R a? b?)
    (hfg : ∀ a b, R a b → S (f a) (g b)) : Option.Rel S (a?.map f) (b?.map g) := by
  cases h with
  | none => exact .none
  | some hR => exact .some (hfg _ _ hR)

theorem bind_rel {f : α → Option γ} {g : β → Option δ} {a? : Option α} {b? : Option β}
    (h : Option.Rel R a? b?) (hfg : ∀ a b, R a b → Option.Rel S (f a) (g b)) :
    Option.Rel S (a?.bind f) (b?.bind g) := by
  cases h with
  | none => exact .none
  | some hR => exact hfg _ _ hR

theorem rel_refl {R : α → α → Prop} (hR : ∀ a, R a a) (a? : Option α) : Option.Rel R a? a? := by
  cases a? with
  | none => exact .none
  | some a => exact .some (hR a)

theorem rel_trans {T : α → γ → Prop} {S : β → γ → Prop} {a? : Option α} {b? : Option β}
    {c? : Option γ} (h : Option.Rel R a? b?) (h' : Option.Rel S b? c?)
    (hT : ∀ a b c, R a b → S b c → T a c) : Option.Rel T a? c? := by
  cases h with
  | none =>
    cases h' with
    | none => exact .none
  | some hR =>
    cases h' with
    | some hS => exact .some (hT _ _ _ hR hS)

theorem mapM_rel {f : α → Option γ} {g : β → Option δ} {as : List α} {bs : List β}
    (hfg : ∀ a b, R a b → Option.Rel S (f a) (g b)) (h : List.Forall₂ R as bs) :
    Option.Rel (List.Forall₂ S) (as.mapM f) (bs.mapM g) := by
  induction h with
  | nil => exact .some .nil
  | @cons a b as bs hfirst hrest ih =>
    rw [List.mapM_cons, List.mapM_cons]
    refine bind_rel (hfg a b hfirst) fun c d hS => ?_
    exact bind_rel ih fun cs ds hrestS => .some (.cons hS hrestS)

/-- The results of a list in another order, if all of its elements have one. -/
theorem mapM_perm {f : α → Option γ} {as as' : List α} (h : as.Perm as') :
    Option.Rel List.Perm (as.mapM f) (as'.mapM f) := by
  induction h with
  | nil => exact .some .nil
  | @cons a as as' hrest ih =>
    rw [List.mapM_cons, List.mapM_cons]
    refine bind_rel (rel_refl Eq.refl (f a)) fun c c' hc => ?_
    subst hc
    exact bind_rel ih fun cs cs' hcs => .some (hcs.cons c)
  | swap a b as =>
    rw [List.mapM_cons, List.mapM_cons, List.mapM_cons, List.mapM_cons]
    cases f a with
    | none =>
      cases f b with
      | none => exact .none
      | some d => exact .none
    | some c =>
      cases f b with
      | none => exact .none
      | some d =>
        change Option.Rel List.Perm (((as.mapM f).bind fun cs => some (c :: cs)).bind
          fun cs => some (d :: cs)) (((as.mapM f).bind fun cs => some (d :: cs)).bind
          fun cs => some (c :: cs))
        cases as.mapM f with
        | none => exact .none
        | some cs => exact .some (.swap c d cs)
  | trans _ _ ih ih' => exact rel_trans ih ih' fun _ _ _ hperm hperm' => hperm.trans hperm'

/-- The results of two lists whose elements have the same results. -/
theorem mapM_eq_of_forall₂ {f : α → Option γ} {g : β → Option γ} {as : List α} {bs : List β}
    (hfg : ∀ a ∈ as, ∀ b, R a b → f a = g b) (h : List.Forall₂ R as bs) :
    as.mapM f = bs.mapM g := by
  induction h with
  | nil => rfl
  | @cons a b as bs hfirst _ ih =>
    have hrest := ih fun c hc => hfg c (List.mem_cons_of_mem a hc)
    rw [List.mapM_cons, List.mapM_cons, hfg a List.mem_cons_self b hfirst, hrest]

/-- The results of two lists whose elements have related results. -/
theorem forall₂_of_mapM {f : α → Option γ} {g : β → Option δ} {as : List α} {bs : List β}
    {cs : List γ} {ds : List δ}
    (hfg : ∀ a b c d, R a b → f a = some c → g b = some d → S c d)
    (h : List.Forall₂ R as bs) (hcs : as.mapM f = some cs) (hds : bs.mapM g = some ds) :
    List.Forall₂ S cs ds := by
  induction h generalizing cs ds with
  | nil =>
    cases hcs
    cases hds
    exact .nil
  | @cons a b as bs hfirst _ ih =>
    rw [List.mapM_cons] at hcs hds
    obtain ⟨c, hc, hcs⟩ := Option.bind_eq_some_iff.mp hcs
    obtain ⟨cs, hrest, hcs⟩ := Option.bind_eq_some_iff.mp hcs
    obtain ⟨d, hd, hds⟩ := Option.bind_eq_some_iff.mp hds
    obtain ⟨ds, hrest', hds⟩ := Option.bind_eq_some_iff.mp hds
    cases hcs
    cases hds
    exact .cons (hfg a b c d hfirst hc hd) (ih hrest hrest')

theorem forall₂_flatten {as : List (List α)} {bs : List (List β)}
    (h : List.Forall₂ (List.Forall₂ R) as bs) : List.Forall₂ R as.flatten bs.flatten := by
  induction h with
  | nil => exact .nil
  | cons hfirst _ ih => exact List.rel_append hfirst ih

/-- What is found first in two lists that are related element by element. -/
theorem find?_rel {p : α → Bool} {q : β → Bool} {as : List α} {bs : List β}
    (hpq : ∀ a b, R a b → p a = q b) (h : List.Forall₂ R as bs) :
    Option.Rel R (as.find? p) (bs.find? q) := by
  induction h with
  | nil => exact .none
  | @cons a b as bs hfirst _ ih =>
    rw [List.find?_cons, List.find?_cons, hpq a b hfirst]
    cases q b with
    | true => exact .some hfirst
    | false => exact ih

end

theorem forall₂_zip {κ : Type} {items items' : List Json} (h : List.Forall₂ Reordered items items')
    (keys : List κ) : List.Forall₂ SameMember (keys.zip items) (keys.zip items') := by
  induction h generalizing keys with
  | nil =>
    rw [List.zip_nil_right]
    exact .nil
  | cons hfirst _ ih =>
    cases keys with
    | nil => exact .nil
    | cons key keys => exact .cons ⟨rfl, hfirst⟩ (ih keys)

/-! ## Records -/

section

variable {value value' : Json} {members members' : List (String × Json)}

theorem members?_rel (h : Reordered value value') :
    Option.Rel SameMembers value.members? value'.members? := by
  cases h with
  | refl value => exact rel_refl SameMembers.refl value.members?
  | array h => exact .none
  | @object members between members' h hperm =>
    have hsame : Option.Rel (List.Forall₂ SameMember) (Json.object members).members?
        (Json.object between).members? := by
      refine mapM_rel ?_ h.forall₂
      rintro ⟨key, value⟩ ⟨key', value'⟩ ⟨hkey, hvalue⟩
      cases hkey
      exact map_rel (rel_refl Eq.refl key) fun name name' hname => ⟨hname, hvalue⟩
    have hmoved : Option.Rel List.Perm (Json.object between).members?
        (Json.object members').members? := mapM_perm hperm
    exact rel_trans hsame hmoved fun _ between _ h hperm => ⟨between, h, hperm⟩

/-- The field of the given keys has one value, or values that differ in the order of members. -/
theorem Record.field?_rel (h : SameMembers members members') (keys : List String) :
    Option.Rel (List.Forall₂ SameMember) (field? members keys) (field? members' keys) := by
  have hkeys : SameMembers (withKeys keys members) (withKeys keys members') :=
    h.filter fun key => keys.contains key
  have hlength := hkeys.length_eq
  unfold field?
  generalize withKeys keys members = found at hkeys hlength
  generalize withKeys keys members' = found' at hkeys hlength
  match found with
  | [] =>
    obtain rfl := List.length_eq_zero_iff.mp hlength.symm
    exact .some .nil
  | [(key, value)] =>
    obtain ⟨⟨key', value'⟩, rfl, -, hvalue⟩ := hkeys.eq_singleton
    cases keys with
    | nil => exact .some .nil
    | cons name keys => exact .some (.cons ⟨rfl, hvalue⟩ .nil)
  | _ :: _ :: _ =>
    match found', hlength with
    | _ :: _ :: _, _ => exact .none

namespace Record

/-- The same fields, with values that are the same but for the order of members. -/
structure Reordered (r r' : Record) : Prop where
  named : r.named = r'.named
  fields : List.Forall₂ SameMember r.fields r'.fields

theorem Reordered.refl (r : Record) : Reordered r r :=
  ⟨rfl, List.forall₂_same.mpr fun _ _ => ⟨rfl, .refl _⟩⟩

theorem ofMembers?_rel (h : SameMembers members members') (shape : Shape) :
    Option.Rel Reordered (ofMembers? shape members) (ofMembers? shape members') := by
  have hfields : Option.Rel (List.Forall₂ (List.Forall₂ SameMember))
      (shape.mapM (field? members)) (shape.mapM (field? members')) := by
    refine mapM_rel ?_ (List.forall₂_same.mpr fun keys _ => (rfl : keys = keys))
    rintro keys _ rfl
    exact field?_rel h keys
  refine map_rel hfields ?_
  intro fields fields' hsame
  exact ⟨rfl, forall₂_flatten hsame⟩

/-- A value and one that is the same but for the order of members write the same record. -/
theorem of?_rel (h : Json.Reordered value value') (shape : Shape) :
    Option.Rel Reordered (of? shape value) (of? shape value') := by
  cases h with
  | refl value => exact rel_refl Reordered.refl (of? shape value)
  | @array items items' h =>
    change Option.Rel Reordered (ofItems? shape items) (ofItems? shape items')
    have hitems := h.forall₂
    rw [ofItems?, ofItems?, hitems.length_eq]
    split
    · exact .some ⟨rfl, forall₂_zip hitems (shape.filterMap List.head?)⟩
    · exact .none
  | object h hperm =>
    exact bind_rel (members?_rel (.object h hperm)) fun _ _ hsame => ofMembers?_rel hsame shape

variable {r r' : Record} {α : Type}

theorem get?_rel (h : Reordered r r') (name : String) :
    Option.Rel Json.Reordered (r.get? name) (r'.get? name) := by
  have hfind : Option.Rel SameMember (r.fields.find? fun field => field.1 = name)
      (r'.fields.find? fun field => field.1 = name) := by
    refine find?_rel ?_ h.fields
    intro field field' hfield
    rw [hfield.1]
  exact map_rel hfind fun _ _ hfield => hfield.2

end Record

end

/-! ## Tags -/

/-- A tag and what is tagged, each with its members in any order. -/
theorem tagged?_rel {value value' : Json} (h : Reordered value value') :
    Option.Rel (fun tagged tagged' => Reordered tagged.1 tagged'.1 ∧ Reordered tagged.2 tagged'.2)
      value.tagged? value'.tagged? := by
  cases h with
  | refl value => exact rel_refl (fun tagged => ⟨.refl _, .refl _⟩) value.tagged?
  | array h =>
    cases h with
    | nil => exact .none
    | cons hitem hrest => exact .some ⟨hitem, .array hrest⟩
  | @object members between members' h hperm =>
    have hsame : SameMembers members members' := ⟨between, h.forall₂, hperm⟩
    have htag : SameMembers (members.filter fun member => member.1 = some tagKey)
        (members'.filter fun member => member.1 = some tagKey) :=
      hsame.filter fun key => key = some tagKey
    have hbody : SameMembers (members.filter fun member => member.1 ≠ some tagKey)
        (members'.filter fun member => member.1 ≠ some tagKey) :=
      hsame.filter fun key => key ≠ some tagKey
    have hlength := htag.length_eq
    simp only [tagged?]
    generalize (members.filter fun member => member.1 = some tagKey) = found at htag hlength
    generalize (members'.filter fun member => member.1 = some tagKey) = found' at htag hlength
    match found with
    | [] =>
      obtain rfl := List.length_eq_zero_iff.mp hlength.symm
      exact .none
    | [(key, tag)] =>
      obtain ⟨⟨key', tag'⟩, rfl, -, hvalue⟩ := htag.eq_singleton
      exact .some ⟨hvalue, hbody.object⟩
    | _ :: _ :: _ =>
      match found', hlength with
      | _ :: _ :: _, _ => exact .none

/-! ## Readers -/

theorem isNull_congr {value value' : Json} (h : Reordered value value') :
    value.isNull = value'.isNull := by
  cases h with
  | refl => rfl
  | array h => rfl
  | object h hperm => rfl

theorem isNullOrEmpty_congr {value value' : Json} (h : Reordered value value') :
    value.isNullOrEmpty = value'.isNullOrEmpty := by
  cases h with
  | refl => rfl
  | array h => rfl
  | @object members between members' h hperm =>
    have hlength : members.length = members'.length :=
      h.forall₂.length_eq.trans hperm.length_eq
    match members, members', hlength with
    | [], [], _ => rfl
    | _ :: _, _ :: _, _ => rfl

/-- Whether a reader gives the same for values that are the same but for the order of members. -/
def IgnoresOrder {α : Type} (decode : Json → Option α) : Prop :=
  ∀ value value', Reordered value value' → decode value = decode value'

/-- What is read from related values is the same if they are read alike. -/
theorem bind_eq_of_rel {α β γ : Type} {R : α → β → Prop} {f : α → Option γ} {g : β → Option γ}
    {a? : Option α} {b? : Option β} (h : Option.Rel R a? b?) (hfg : ∀ a b, R a b → f a = g b) :
    a?.bind f = b?.bind g := by
  cases h with
  | none => rfl
  | some hR => exact hfg _ _ hR

namespace IgnoresOrder

variable {α β : Type} {decode : Json → Option α}

/-- Readers of scalars do not look into arrays and objects. -/
theorem of_scalar (harray : ∀ items items', decode (.array items) = decode (.array items'))
    (hobject : ∀ members members', decode (.object members) = decode (.object members')) :
    IgnoresOrder decode := by
  intro value value' h
  cases h with
  | refl => rfl
  | array h => exact harray _ _
  | object h hperm => exact hobject _ _

theorem string? : IgnoresOrder string? :=
  of_scalar (fun _ _ => rfl) fun _ _ => rfl

theorem bool? : IgnoresOrder bool? :=
  of_scalar (fun _ _ => rfl) fun _ _ => rfl

theorem rel (h : IgnoresOrder decode) {value value' : Json} (hvalue : Reordered value value') :
    Option.Rel Eq (decode value) (decode value') := by
  rw [h value value' hvalue]
  exact rel_refl Eq.refl (decode value')

theorem bind (h : IgnoresOrder decode) (f : α → Option β) :
    IgnoresOrder fun value => (decode value).bind f := by
  intro value value' hvalue
  exact congrArg (fun read => read.bind f) (h value value' hvalue)

/-- Readers of records ask for fields. -/
theorem record {f : Record → Option α} (shape : Shape)
    (h : ∀ r r', Record.Reordered r r' → f r = f r') :
    IgnoresOrder fun value => (Record.of? shape value).bind f :=
  fun _ _ hvalue => bind_eq_of_rel (Record.of?_rel hvalue shape) h

theorem orNull? (h : IgnoresOrder decode) : IgnoresOrder (Record.orNull? decode) := by
  intro value value' hvalue
  cases hvalue with
  | refl => rfl
  | array hitems => exact congrArg (Option.map some) (h _ _ (.array hitems))
  | object hmembers hperm => exact congrArg (Option.map some) (h _ _ (.object hmembers hperm))

theorem choice? {isNothing : Json → Bool}
    (h : ∀ value value', Reordered value value' → isNothing value = isNothing value') :
    IgnoresOrder (choice? isNothing) := by
  intro value value' hvalue
  cases hvalue with
  | refl => rfl
  | array h => rfl
  | @object members between members' hmembers hperm =>
    have hsame : SameMembers members members' := ⟨between, hmembers.forall₂, hperm⟩
    have hlength := hsame.length_eq
    match members with
    | [] =>
      obtain rfl := List.length_eq_zero_iff.mp hlength.symm
      rfl
    | [(key, nothing)] =>
      obtain ⟨⟨key', nothing'⟩, rfl, hkey, hnothing⟩ := hsame.eq_singleton
      obtain rfl : key = key' := hkey
      cases key with
      | none => rfl
      | some name =>
        exact congrArg (fun counts => if counts then some name else none)
          (h nothing nothing' hnothing)
    | _ :: _ :: _ =>
      match members', hlength with
      | _ :: _ :: _, _ => simp only [Json.choice?]

end IgnoresOrder

namespace Record.Reordered

variable {r r' : Record} {α : Type} {decode : Json → Option α}

theorem required?_eq (h : Reordered r r') (hdecode : IgnoresOrder decode) (name : String) :
    r.required? name decode = r'.required? name decode :=
  bind_eq_of_rel (get?_rel h name) hdecode

/-- The value of a field that is read alike wherever it stands. -/
theorem orDefault?_eq_of_get? {name : String} (h : Reordered r r')
    (hdecode : ∀ value value', r.get? name = some value → Json.Reordered value value' →
      decode value = decode value') (default : α) :
    r.orDefault? name default decode = r'.orDefault? name default decode := by
  have hget := get?_rel h name
  unfold orDefault?
  generalize r.get? name = found at hget hdecode
  generalize r'.get? name = found' at hget
  cases hget with
  | none => rfl
  | some hvalue => exact hdecode _ _ rfl hvalue

theorem orDefault?_eq (h : Reordered r r') (hdecode : IgnoresOrder decode) (name : String)
    (default : α) : r.orDefault? name default decode = r'.orDefault? name default decode :=
  h.orDefault?_eq_of_get? (fun value value' _ => hdecode value value') default

theorem nullable?_eq (h : Reordered r r') (hdecode : IgnoresOrder decode) (name : String) :
    r.nullable? name decode = r'.nullable? name decode := by
  have hget := get?_rel h name
  unfold nullable?
  rw [h.named]
  generalize r.get? name = found at hget
  generalize r'.get? name = found' at hget
  cases hget with
  | none => rfl
  | some hvalue => exact hdecode.orNull? _ _ hvalue

end Record.Reordered

end PagedQuery.Json
