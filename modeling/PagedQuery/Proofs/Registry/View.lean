import PagedQuery.Proofs.Registry.Run

/-!
# One name of a registry

What belongs to one name makes a registry of its own: the holders that were made
under the name, its entry in the map, and the calls that are about it. Holders
and calls have new numbers there, which count only those that belong to the
name. Sweeps and shutdowns are about all names; of the holders that they still
work on, they keep those of the name.

* `rank`: the position of an element among those that satisfy a condition;
* `Registry.Stage.restrict`, `Registry.view`: the part of a call and of a registry;
* `Registry.lookup?_view`, `Registry.holder?_view`, `Registry.registered_view`: what is seen there;
* `Registry.view_setHolder`, `Registry.view_goTo`, `Registry.view_removeCurrent`: parts of steps.
-/

namespace PagedQuery.Task

/-! ## Numbers among some of a list -/

section

variable {α β : Type} {p : α → Bool} {xs : List α} {k l : Nat} {x y : α}

/-- The number of elements before a position that satisfy a condition. -/
def rank (p : α → Bool) (xs : List α) (k : Nat) : Nat :=
  (xs.take k).countP p

@[simp] theorem rank_zero : rank p xs 0 = 0 := rfl

theorem rank_cons_succ : rank p (x :: xs) (k + 1) = rank p xs k + if p x then 1 else 0 := by
  rw [rank, List.take_succ_cons, List.countP_cons, rank]

theorem rank_length : rank p xs xs.length = (xs.filter p).length := by
  rw [rank, List.take_length, List.countP_eq_length_filter]

theorem rank_append (h : k ≤ xs.length) (ys : List α) : rank p (xs ++ ys) k = rank p xs k := by
  rw [rank, List.take_append_of_le_length h, rank]

theorem rank_map (f : β → α) (xs : List β) : rank p (xs.map f) k = rank (p ∘ f) xs k := by
  rw [rank, ← List.map_take, List.countP_map, rank]

theorem getElem?_filter_rank (hk : xs[k]? = some x) (hx : p x = true) :
    (xs.filter p)[rank p xs k]? = some x := by
  induction xs generalizing k with
  | nil => cases hk
  | cons first rest ih =>
    cases k with
    | zero =>
      cases hk
      simp [hx]
    | succ k =>
      have hrest : rest[k]? = some x := hk
      cases hfirst : p first <;> simp [rank_cons_succ, hfirst, ih hrest]

/-- An element that satisfies the condition is replaced by one that does. -/
theorem filter_set (hk : xs[k]? = some x) (hx : p x = true) (hy : p y = true) :
    (xs.set k y).filter p = (xs.filter p).set (rank p xs k) y := by
  induction xs generalizing k with
  | nil => cases hk
  | cons first rest ih =>
    cases k with
    | zero =>
      cases hk
      simp [hx, hy]
    | succ k =>
      have hrest : rest[k]? = some x := hk
      cases hfirst : p first <;> simp [rank_cons_succ, hfirst, ih hrest]

/-- An element that does not satisfy the condition is replaced by one that does not either. -/
theorem filter_set_of_not (hk : xs[k]? = some x) (hx : p x = false) (hy : p y = false) :
    (xs.set k y).filter p = xs.filter p := by
  induction xs generalizing k with
  | nil => cases hk
  | cons first rest ih =>
    cases k with
    | zero =>
      cases hk
      simp [hx, hy]
    | succ k =>
      have hrest : rest[k]? = some x := hk
      cases hfirst : p first <;> simp [hfirst, ih hrest]

theorem modify_eq_set (f : α → α) (hk : xs[k]? = some x) : xs.modify k f = xs.set k (f x) := by
  obtain ⟨hlt, rfl⟩ := List.getElem?_eq_some_iff.mp hk
  refine List.ext_getElem? fun l => ?_
  rw [List.getElem?_modify, List.getElem?_set]
  by_cases hkl : k = l
  · subst hkl
    simp [hlt]
  · simp [hkl]

theorem rank_lt (hkl : k < l) (hk : xs[k]? = some x) (hx : p x = true) :
    rank p xs k < rank p xs l := by
  induction xs generalizing k l with
  | nil => cases hk
  | cons first rest ih =>
    cases l with
    | zero => exact absurd hkl (Nat.not_lt_zero k)
    | succ l =>
      rw [rank_cons_succ]
      cases k with
      | zero =>
        cases hk
        simp [hx]
      | succ k =>
        rw [rank_cons_succ]
        have hlt := ih (Nat.lt_of_succ_lt_succ hkl) hk
        omega

/-- Elements that satisfy the condition have different numbers. -/
theorem rank_inj (hk : xs[k]? = some x) (hx : p x = true) (hl : xs[l]? = some y)
    (hy : p y = true) : rank p xs k = rank p xs l ↔ k = l := by
  constructor
  · intro heq
    rcases Nat.lt_trichotomy k l with hlt | rfl | hlt
    · exact absurd heq (Nat.ne_of_lt (rank_lt hlt hk hx))
    · rfl
    · exact absurd heq (Nat.ne_of_gt (rank_lt hlt hl hy))
  · rintro rfl
    rfl

theorem zip_set {ys : List β} {b : β} (hk : xs[k]? = some x) :
    xs.zip (ys.set k b) = (xs.zip ys).set k (x, b) := by
  induction xs generalizing ys k with
  | nil => cases hk
  | cons first rest ih =>
    cases ys with
    | nil => simp
    | cons other ys =>
      cases k with
      | zero =>
        cases hk
        rfl
      | succ k => exact congrArg ((first, other) :: ·) (ih hk)

end

namespace Registry

variable {Id : Type} [DecidableEq Id]

/-! ## The part of one name -/

/-- The names that the holders were made under. -/
def names (r : Registry Id) : List Id :=
  r.slots.map Slot.id

/-- Those of a list of holders that were made under a name, with their numbers among these. -/
def ownSlots (id : Id) (names : List Id) (slots : List Nat) : List Nat :=
  (slots.filter fun slot => names[slot]? = some id).map (rank (· = id) names)

/-- The part of a call that is about one name. While a sweep or a shutdown works on a holder of
another name, it is on the way to the next holder of this one. The count of a sweep is about all
names and is left out. -/
def Stage.restrict (id : Id) (names : List Id) : Stage Id → Stage Id
  | .fetchWait slot call => .fetchWait (rank (· = id) names slot) call
  | .fetchRemove slot result => .fetchRemove (rank (· = id) names slot) result
  | .cancelWait slot call => .cancelWait (rank (· = id) names slot) call
  | .sweepNext left lost => .sweepNext (ownSlots id names left) (ownSlots id names lost)
  | .sweepWait slot call left lost =>
    if names[slot]? = some id then
      .sweepWait (rank (· = id) names slot) call (ownSlots id names left) (ownSlots id names lost)
    else .sweepNext (ownSlots id names left) (ownSlots id names lost)
  | .sweepRemove lost => .sweepRemove (ownSlots id names lost)
  | .shutdownNext left => .shutdownNext (ownSlots id names left)
  | .shutdownWait slot call left =>
    if names[slot]? = some id then
      .shutdownWait (rank (· = id) names slot) call (ownSlots id names left)
    else .shutdownNext (ownSlots id names left)
  | .statusWait slot call => .statusWait (rank (· = id) names slot) call
  | .swept _ => .swept 0
  | stage => stage

/-- Whether an operation is about a name. Sweeps and shutdowns are about all names. -/
def Operation.concerns (id : Id) : Operation Id → Bool
  | .fetch id' _ => id' = id
  | .cancel id' => id' = id
  | .sweep => true
  | .shutdown => true
  | .status id' => id' = id

/-- The part of a registry that belongs to one name. The operations are those that its calls
were begun for. -/
def view (id : Id) (operations : List (Operation Id)) (r : Registry Id) : Registry Id :=
  { config := r.config
    clock := r.clock
    slots := r.slots.filter fun s => s.id = id
    entries := (r.entries.filter fun entry => entry.1 = id).map fun entry =>
      (entry.1, rank (· = id) r.names entry.2)
    calls := ((operations.zip r.calls).filter fun c => c.1.concerns id).map fun c =>
      c.2.restrict id r.names
    reaperDue := r.reaperDue }

/-- The number of a call among those that are about a name. -/
def callNumber (id : Id) (operations : List (Operation Id)) (c : Nat) : Nat :=
  rank (Operation.concerns id) operations c

/-- The holders in the map were made under the names that lead to them. -/
def Named (r : Registry Id) : Prop :=
  ∀ entry ∈ r.entries, r.names[entry.2]? = some entry.1

variable {id : Id} {operations : List (Operation Id)} {r : Registry Id} {slot c : Nat}

/-! ## Parts of stages -/

@[simp] theorem ownSlots_nil (id : Id) (names : List Id) : ownSlots id names [] = [] := rfl

theorem ownSlots_cons_self {names : List Id} (hslot : names[slot]? = some id)
    (slots : List Nat) :
    ownSlots id names (slot :: slots) = rank (· = id) names slot :: ownSlots id names slots := by
  simp [ownSlots, hslot]

theorem ownSlots_cons_of_ne {names : List Id} (hslot : names[slot]? ≠ some id)
    (slots : List Nat) : ownSlots id names (slot :: slots) = ownSlots id names slots := by
  simp [ownSlots, hslot]

theorem ownSlots_append (names : List Id) (slots more : List Nat) :
    ownSlots id names (slots ++ more) = ownSlots id names slots ++ ownSlots id names more := by
  rw [ownSlots, List.filter_append, List.map_append, ownSlots, ownSlots]

section

variable {names : List Id} {k : Nat} {left lost : List Nat}

theorem Stage.restrict_sweepWait (hslot : names[slot]? = some id) :
    (Stage.sweepWait slot k left lost).restrict id names =
      .sweepWait (rank (· = id) names slot) k (ownSlots id names left) (ownSlots id names lost) :=
  if_pos hslot

theorem Stage.restrict_sweepWait_of_ne (hslot : names[slot]? ≠ some id) :
    (Stage.sweepWait slot k left lost).restrict id names =
      .sweepNext (ownSlots id names left) (ownSlots id names lost) :=
  if_neg hslot

theorem Stage.restrict_shutdownWait (hslot : names[slot]? = some id) :
    (Stage.shutdownWait slot k left).restrict id names =
      .shutdownWait (rank (· = id) names slot) k (ownSlots id names left) :=
  if_pos hslot

theorem Stage.restrict_shutdownWait_of_ne (hslot : names[slot]? ≠ some id) :
    (Stage.shutdownWait slot k left).restrict id names = .shutdownNext (ownSlots id names left) :=
  if_neg hslot

end

/-! ## Holders -/

omit [DecidableEq Id] in
theorem getElem?_names : r.names[slot]? = r.slots[slot]?.map Slot.id :=
  List.getElem?_map

theorem rank_names : rank (· = id) r.names slot = rank (fun s => s.id = id) r.slots slot :=
  rank_map ..

omit [DecidableEq Id] in
theorem exists_slot (hslot : r.names[slot]? = some id) :
    ∃ s, r.slots[slot]? = some s ∧ s.id = id := by
  rw [getElem?_names] at hslot
  exact Option.map_eq_some_iff.mp hslot

omit [DecidableEq Id] in
theorem id_of_names {s : Slot Id} (hs : r.slots[slot]? = some s)
    (hslot : r.names[slot]? = some id) : s.id = id := by
  rw [getElem?_names, hs] at hslot
  exact Option.some.inj hslot

variable (operations) in
theorem getElem?_slots_view {s : Slot Id} (hs : r.slots[slot]? = some s)
    (hslot : r.names[slot]? = some id) :
    (view id operations r).slots[rank (· = id) r.names slot]? = some s := by
  rw [rank_names]
  exact getElem?_filter_rank hs (decide_eq_true (id_of_names hs hslot))

theorem holder?_view (hslot : r.names[slot]? = some id) :
    (view id operations r).holder? (rank (· = id) r.names slot) = r.holder? slot := by
  obtain ⟨s, hs, -⟩ := exists_slot hslot
  rw [holder?, getElem?_slots_view operations hs hslot, holder?, hs]

theorem innerReply?_view (hslot : r.names[slot]? = some id) (k : Nat) :
    (view id operations r).innerReply? (rank (· = id) r.names slot) k = r.innerReply? slot k := by
  rw [innerReply?, holder?_view hslot, innerReply?]

section

variable {f : Slot Id → Slot Id} (hf : ∀ s, (f s).id = s.id)
include hf

omit [DecidableEq Id] in
theorem names_modify :
    ({ r with slots := r.slots.modify slot f } : Registry Id).names = r.names := by
  refine List.ext_getElem? fun k => ?_
  rw [getElem?_names, getElem?_names, List.getElem?_modify]
  cases r.slots[k]? with
  | none => rfl
  | some s => by_cases hk : slot = k <;> simp [hk, hf]

theorem view_modify (hslot : r.names[slot]? = some id) :
    view id operations { r with slots := r.slots.modify slot f } =
      { view id operations r with
        slots := (view id operations r).slots.modify (rank (· = id) r.names slot) f } := by
  obtain ⟨s, hs, hid⟩ := exists_slot hslot
  have hseen := getElem?_slots_view operations hs hslot
  rw [modify_eq_set f hseen]
  simp only [view, names_modify hf]
  rw [modify_eq_set f hs, filter_set hs (decide_eq_true hid) (decide_eq_true ((hf s).trans hid)),
    rank_names]

theorem view_modify_of_ne (hother : r.names[slot]? ≠ some id) :
    view id operations { r with slots := r.slots.modify slot f } = view id operations r := by
  have hfilter : (r.slots.modify slot f).filter (fun s => s.id = id) =
      r.slots.filter fun s => s.id = id := by
    cases hs : r.slots[slot]? with
    | none => rw [List.modify_eq_self (List.getElem?_eq_none_iff.mp hs)]
    | some s =>
      rw [getElem?_names, hs] at hother
      have hid : s.id ≠ id := fun heq => hother (congrArg some heq)
      have hstays : (f s).id ≠ id := by rwa [hf]
      rw [modify_eq_set f hs, filter_set_of_not hs (decide_eq_false hid) (decide_eq_false hstays)]
  simp only [view, names_modify hf, hfilter]

end

theorem view_setHolder (hslot : r.names[slot]? = some id) (h : Holder) :
    view id operations (r.setHolder slot h) =
      (view id operations r).setHolder (rank (· = id) r.names slot) h :=
  view_modify (fun _ => rfl) hslot

theorem view_setHolder_of_ne (hother : r.names[slot]? ≠ some id) (h : Holder) :
    view id operations (r.setHolder slot h) = view id operations r :=
  view_modify_of_ne (fun _ => rfl) hother

/-! ## The map -/

theorem lookup_filter_map (f : Nat → Nat) (entries : List (Id × Nat)) :
    ((entries.filter fun entry => entry.1 = id).map fun entry => (entry.1, f entry.2)).lookup id =
      (entries.lookup id).map f := by
  induction entries with
  | nil => rfl
  | cons entry rest ih =>
    obtain ⟨name, slot⟩ := entry
    by_cases heq : name = id
    · simp [heq]
    · have hne : (id == name) = false := beq_false_of_ne fun h => heq h.symm
      simp [List.lookup_cons, heq, hne, ih]

theorem lookup?_view :
    (view id operations r).lookup? id = (r.lookup? id).map (rank (· = id) r.names) :=
  lookup_filter_map _ r.entries

theorem mem_ownSlots_iff {slots : List Nat} (hslot : r.names[slot]? = some id) :
    rank (· = id) r.names slot ∈ ownSlots id r.names slots ↔ slot ∈ slots := by
  simp only [ownSlots, List.mem_map, List.mem_filter, decide_eq_true_eq]
  constructor
  · rintro ⟨k, ⟨hmem, hk⟩, hrank⟩
    rw [rank_inj hk (decide_eq_true rfl) hslot (decide_eq_true rfl)] at hrank
    rwa [← hrank]
  · intro hmem
    exact ⟨slot, ⟨hmem, hslot⟩, rfl⟩

section

variable (hnamed : r.Named)
include hnamed

theorem registered_view :
    (view id operations r).registered = ownSlots id r.names r.registered := by
  have hfilter : r.registered.filter (fun slot => r.names[slot]? = some id) =
      (r.entries.filter fun entry => entry.1 = id).map Prod.snd := by
    rw [registered, List.filter_map]
    refine congrArg (List.map Prod.snd) (List.filter_congr fun entry hentry => ?_)
    simp [hnamed entry hentry]
  rw [ownSlots, hfilter, registered, view, List.map_map, List.map_map]
  rfl

theorem named_of_lookup? (hlookup : r.lookup? id = some slot) : r.names[slot]? = some id :=
  hnamed _ (mem_entries_of_lookup? hlookup)

variable (id operations) in
/-- What is removed for other names is not seen. -/
theorem view_removeAll (lost : List Nat) :
    view id operations (lost.foldl removeCurrent r) =
      (ownSlots id r.names lost).foldl removeCurrent (view id operations r) := by
  rw [foldl_removeCurrent, foldl_removeCurrent]
  simp only [view, List.filter_filter, List.filter_map]
  congr 2
  refine List.filter_congr fun entry hentry => ?_
  by_cases hid : entry.1 = id
  · have hslot : r.names[entry.2]? = some id := by rw [hnamed entry hentry, hid]
    simp [hid, mem_ownSlots_iff hslot]
  · simp [hid]

theorem view_removeCurrent (hslot : r.names[slot]? = some id) :
    view id operations (r.removeCurrent slot) =
      (view id operations r).removeCurrent (rank (· = id) r.names slot) := by
  have hown : ownSlots id r.names [slot] = [rank (· = id) r.names slot] :=
    ownSlots_cons_self hslot []
  have hremove := view_removeAll id operations hnamed [slot]
  rwa [hown] at hremove

theorem view_removeCurrent_of_ne (hother : r.names[slot]? ≠ some id) :
    view id operations (r.removeCurrent slot) = view id operations r := by
  have hown : ownSlots id r.names [slot] = [] := ownSlots_cons_of_ne hother []
  have hremove := view_removeAll id operations hnamed [slot]
  rwa [hown] at hremove

end

/-! ## Calls -/

section

variable {operation : Operation Id} {stage : Stage Id}
  (hlength : operations.length = r.calls.length) (hop : operations[c]? = some operation)
  (hc : r.calls[c]? = some stage)
include hlength hop hc

omit hlength [DecidableEq Id] in
theorem getElem?_zip_calls : (operations.zip r.calls)[c]? = some (operation, stage) :=
  List.getElem?_zip_eq_some.mpr ⟨hop, hc⟩

variable (id c) in
omit hop hc in
theorem rank_zip_calls :
    rank (fun call => call.1.concerns id) (operations.zip r.calls) c =
      callNumber id operations c := by
  have hmap : (operations.zip r.calls).map Prod.fst = operations :=
    List.map_fst_zip (Nat.le_of_eq hlength)
  have hrank := rank_map (p := Operation.concerns id) (k := c) Prod.fst (operations.zip r.calls)
  rw [hmap] at hrank
  exact hrank.symm

theorem getElem?_calls_view (hconcerns : operation.concerns id = true) :
    (view id operations r).calls[callNumber id operations c]? =
      some (stage.restrict id r.names) := by
  rw [← rank_zip_calls id c hlength]
  simp only [view, List.getElem?_map]
  rw [getElem?_filter_rank (getElem?_zip_calls hop hc) hconcerns]
  rfl

theorem view_goTo (hconcerns : operation.concerns id = true) (next : Stage Id) :
    view id operations (r.goTo c next) =
      (view id operations r).goTo (callNumber id operations c) (next.restrict id r.names) := by
  rw [← rank_zip_calls id c hlength]
  simp only [view, goTo, names]
  rw [zip_set hop, filter_set (getElem?_zip_calls hop hc) hconcerns hconcerns, List.map_set]

omit hlength in
theorem view_goTo_of_not (hconcerns : operation.concerns id = false) (next : Stage Id) :
    view id operations (r.goTo c next) = view id operations r := by
  simp only [view, goTo, names]
  rw [zip_set hop, filter_set_of_not (getElem?_zip_calls hop hc) hconcerns hconcerns]

/-- A step of a call that is not seen. -/
theorem view_goTo_of_eq {next : Stage Id}
    (hsame : next.restrict id r.names = stage.restrict id r.names) :
    view id operations (r.goTo c next) = view id operations r := by
  cases hconcerns : operation.concerns id with
  | false => exact view_goTo_of_not hop hc hconcerns next
  | true =>
    have hseen := getElem?_calls_view hlength hop hc hconcerns
    rw [view_goTo hlength hop hc hconcerns, hsame, goTo]
    obtain ⟨hlt, hget⟩ := List.getElem?_eq_some_iff.mp hseen
    rw [← hget, List.set_getElem_self]

end

end Registry

end PagedQuery.Task
