import PagedQuery.Json.Record
import PagedQuery.Proofs.Binary64.Shortest
import PagedQuery.Proofs.Json.Scanning
import PagedQuery.Proofs.Outcome

/-!
# What readers accept

A reader that looks at every part of a value refuses one that is nested too
deep. What a record holds is nested less deep than the record.

* `Json.depth`: how many arrays and objects are open at once;
* `Json.depth_le_of_isSoundWithin`, `Json.hasText_of_isSoundWithin`: what soundness says;
* `Json.Numeral.isSome_toBinary64?`: positions are finite numbers;
* `Json.Record.depth_lt_of_get?`, `Json.depth_le_of_tagged?`: fields and tagged values.
-/

namespace PagedQuery.Json.Numeral

/-- The positions that a record can hold are finite as doubles. -/
theorem isSome_toBinary64? {n : Nat} (hn : n < Nat.pow 2 64) :
    (integer false n).toBinary64?.isSome = true := by
  have hfinite : (Binary64.ofDecimal false n 0).isFinite = true := by
    by_cases hzero : n = 0
    · rw [hzero]
      rfl
    · have hlt : (n : Rat) / (1 : Nat) < (2 : Rat) ^ (1023 : Int) := by
        have hbits : (n : Rat) < (2 : Rat) ^ (64 : Int) := by exact_mod_cast hn
        rw [Nat.cast_one, div_one]
        exact hbits.trans (zpow_lt_zpow_right₀ (by norm_num) (by decide))
      have hratio := Binary64.isFinite_ofRatio (Nat.pos_of_ne_zero hzero) (by decide) false hlt
      rw [Binary64.ofDecimal, if_neg hzero, if_neg (by decide), if_neg (by omega),
        if_pos (Int.le_refl 0)]
      simpa using hratio
  simp only [toBinary64?, hfinite, if_true, Option.isSome_some]

end PagedQuery.Json.Numeral

namespace PagedQuery.Json

/-! ## Depth -/

mutual

/-- The most arrays and objects of the value that are open at once. -/
def depth : Json → Nat
  | .array items => itemsDepth items + 1
  | .object members => membersDepth members + 1
  | _ => 0

def itemsDepth : List Json → Nat
  | [] => 0
  | item :: rest => max item.depth (itemsDepth rest)

def membersDepth : List (Option String × Json) → Nat
  | [] => 0
  | (_, value) :: rest => max value.depth (membersDepth rest)

end

section

variable {value : Json} {items : List Json} {members : List (Option String × Json)} {d : Nat}

theorem depth_le_itemsDepth (h : value ∈ items) : value.depth ≤ itemsDepth items := by
  induction items with
  | nil => cases h
  | cons item rest ih =>
    rw [itemsDepth]
    rcases List.mem_cons.mp h with rfl | h
    · exact Nat.le_max_left ..
    · exact Nat.le_trans (ih h) (Nat.le_max_right ..)

theorem depth_le_membersDepth {key : Option String} (h : (key, value) ∈ members) :
    value.depth ≤ membersDepth members := by
  induction members with
  | nil => cases h
  | cons member rest ih =>
    rw [membersDepth]
    rcases List.mem_cons.mp h with rfl | h
    · exact Nat.le_max_left ..
    · exact Nat.le_trans (ih h) (Nat.le_max_right ..)

theorem itemsDepth_le (h : ∀ item ∈ items, item.depth ≤ d) : itemsDepth items ≤ d := by
  induction items with
  | nil => exact Nat.zero_le d
  | cons item rest ih =>
    obtain ⟨hitem, hrest⟩ := List.forall_mem_cons.mp h
    rw [itemsDepth]
    exact Nat.max_le.mpr ⟨hitem, ih hrest⟩

theorem membersDepth_le (h : ∀ member ∈ members, member.2.depth ≤ d) :
    membersDepth members ≤ d := by
  induction members with
  | nil => exact Nat.zero_le d
  | cons member rest ih =>
    obtain ⟨hmember, hrest⟩ := List.forall_mem_cons.mp h
    rw [membersDepth]
    exact Nat.max_le.mpr ⟨hmember, ih hrest⟩

end

/-! ## Soundness -/

mutual

theorem depth_le_of_isSoundWithin : ∀ (value : Json) {d : Nat}, value.isSoundWithin d = true →
    value.depth ≤ d
  | .null, _, _ => Nat.zero_le _
  | .bool _, _, _ => Nat.zero_le _
  | .number _, _, _ => Nat.zero_le _
  | .string _, _, _ => Nat.zero_le _
  | .array items, d, h => by
    obtain ⟨hpos, hitems⟩ := (Bool.and_eq_true _ _).mp h
    have hlt := of_decide_eq_true hpos
    have hle := itemsDepth_le_of_areSoundWithin items hitems
    rw [depth]
    omega
  | .object members, d, h => by
    obtain ⟨hpos, hmembers⟩ := (Bool.and_eq_true _ _).mp h
    have hlt := of_decide_eq_true hpos
    have hle := membersDepth_le_of_membersSoundWithin members hmembers
    rw [depth]
    omega

theorem itemsDepth_le_of_areSoundWithin : ∀ (items : List Json) {d : Nat},
    areSoundWithin d items = true → itemsDepth items ≤ d
  | [], _, _ => Nat.zero_le _
  | item :: rest, _, h => by
    obtain ⟨hitem, hrest⟩ := (Bool.and_eq_true _ _).mp h
    rw [itemsDepth]
    exact Nat.max_le.mpr
      ⟨depth_le_of_isSoundWithin item hitem, itemsDepth_le_of_areSoundWithin rest hrest⟩

theorem membersDepth_le_of_membersSoundWithin : ∀ (members : List (Option String × Json))
    {d : Nat}, membersSoundWithin d members = true → membersDepth members ≤ d
  | [], _, _ => Nat.zero_le _
  | (_, value) :: rest, _, h => by
    obtain ⟨hmember, hrest⟩ := (Bool.and_eq_true _ _).mp h
    obtain ⟨-, hvalue⟩ := (Bool.and_eq_true _ _).mp hmember
    rw [membersDepth]
    exact Nat.max_le.mpr
      ⟨depth_le_of_isSoundWithin value hvalue, membersDepth_le_of_membersSoundWithin rest hrest⟩

end

mutual

theorem hasText_of_isSoundWithin : ∀ (value : Json) {d : Nat}, value.isSoundWithin d = true →
    value.HasText
  | .null, _, _ => trivial
  | .bool _, _, _ => trivial
  | .number _, _, _ => trivial
  | .string _, _, h => h
  | .array items, _, h => haveText_of_areSoundWithin items ((Bool.and_eq_true _ _).mp h).2
  | .object members, _, h =>
    haveText_of_membersSoundWithin members ((Bool.and_eq_true _ _).mp h).2

theorem haveText_of_areSoundWithin : ∀ (items : List Json) {d : Nat},
    areSoundWithin d items = true → AllHaveText items
  | [], _, _ => trivial
  | item :: rest, _, h =>
    ⟨hasText_of_isSoundWithin item ((Bool.and_eq_true _ _).mp h).1,
      haveText_of_areSoundWithin rest ((Bool.and_eq_true _ _).mp h).2⟩

theorem haveText_of_membersSoundWithin : ∀ (members : List (Option String × Json)) {d : Nat},
    membersSoundWithin d members = true → MembersHaveText members
  | [], _, _ => trivial
  | (key, value) :: rest, _, h => by
    obtain ⟨hmember, hrest⟩ := (Bool.and_eq_true _ _).mp h
    obtain ⟨hkey, hvalue⟩ := (Bool.and_eq_true _ _).mp hmember
    exact ⟨hkey, hasText_of_isSoundWithin value hvalue, haveText_of_membersSoundWithin rest hrest⟩

end

/-! ## Fields of records -/

section

variable {shape : Shape} {members : List (String × Json)} {value body : Json}
  {r : Record} {name : String}

theorem Record.mem_of_get? (h : r.get? name = some value) : ∃ key, (key, value) ∈ r.fields := by
  obtain ⟨field, hfind, rfl⟩ := Option.map_eq_some_iff.mp h
  exact ⟨field.1, List.mem_of_find?_eq_some hfind⟩

/-- The fields of a record are among the members it was made of. -/
theorem Record.mem_of_ofMembers? (h : Record.ofMembers? shape members = some r)
    (hget : r.get? name = some value) : ∃ key, (key, value) ∈ members := by
  obtain ⟨fields, hfields, rfl⟩ := Option.map_eq_some_iff.mp h
  obtain ⟨key, hmem⟩ := Record.mem_of_get? hget
  obtain ⟨found, hfound, hmem⟩ := List.mem_flatten.mp hmem
  obtain ⟨keys, -, hfield⟩ := exists_of_mapM_eq_some hfields hfound
  unfold field? at hfield
  split at hfield
  · cases hfield
    cases hmem
  · rename_i key' value' hkeys
    cases hfield
    obtain ⟨name', -, heq⟩ := List.mem_map.mp hmem
    cases heq
    have hin : (key', value) ∈ withKeys keys members := by
      rw [hkeys]
      exact List.mem_cons_self
    exact ⟨key', (List.mem_filter.mp hin).1⟩
  · cases hfield

/-- What a record holds is nested less deep than the value that writes the record. -/
theorem Record.depth_lt_of_get? (h : Record.of? shape body = some r)
    (hget : r.get? name = some value) : value.depth < body.depth := by
  unfold Record.of? at h
  split at h
  · rename_i items
    unfold ofItems? at h
    split at h
    · cases h
      obtain ⟨key, hmem⟩ := Record.mem_of_get? hget
      have hitem := (List.of_mem_zip hmem).2
      exact Nat.lt_succ_of_le (depth_le_itemsDepth hitem)
    · cases h
  · obtain ⟨members, hmembers, h⟩ := Option.bind_eq_some_iff.mp h
    obtain ⟨key, hmem⟩ := Record.mem_of_ofMembers? h hget
    unfold members? at hmembers
    split at hmembers
    · obtain ⟨member, hmember, hkey⟩ := exists_of_mapM_eq_some hmembers hmem
      obtain ⟨key', -, heq⟩ := Option.map_eq_some_iff.mp hkey
      cases heq
      exact Nat.lt_succ_of_le (depth_le_membersDepth hmember)
    · cases hmembers

theorem depth_le_of_tagged? {tag : Json} (h : value.tagged? = some (tag, body)) :
    body.depth ≤ value.depth := by
  unfold tagged? at h
  split at h
  · rename_i members
    split at h
    · cases h
      apply Nat.succ_le_succ
      apply membersDepth_le
      intro member hmember
      exact depth_le_membersDepth (List.mem_filter.mp hmember).1
    · cases h
  · cases h
    apply Nat.succ_le_succ
    apply itemsDepth_le
    intro item hitem
    exact depth_le_itemsDepth (List.mem_cons_of_mem _ hitem)
  · cases h

end

end PagedQuery.Json
