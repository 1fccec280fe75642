import PagedQuery.Proofs.Registry.Placement

/-!
# Separate names

The part of a registry that belongs to one name goes on by the steps about that
name alone. Every such step is the step that a registry with nothing else in it
would take, and no other step changes anything there.

* `Registry.ownAction?`: what an action is for one name;
* `Registry.CallStep.view_of_own`, `Registry.CallStep.view_of_other`: the steps of calls;
* `Registry.isUnreachable_view`: holders of the name that nobody can reach;
* `Registry.Step.view_of_own`, `Registry.Step.view_of_other`: the steps of one name, and others.
-/

namespace PagedQuery.Task.Registry

variable {Id : Type} [DecidableEq Id] {id other : Id} {r r' : Registry Id} {a b : Action Id}
  {operations : List (Operation Id)} {operation : Operation Id} {stage : Stage Id} {slot c : Nat}

/-! ## Actions of one name -/

/-- Whether the next step of a call is about a name. Sweeps and shutdowns work on one holder
after the other; their first and last steps are about all names. -/
def Stage.isAbout (id : Id) (names : List Id) : Stage Id → Bool
  | .fetchLookup id' _ => id' = id
  | .fetchWait slot _ => names[slot]? = some id
  | .fetchRemove slot _ => names[slot]? = some id
  | .cancelRemove id' => id' = id
  | .cancelWait slot _ => names[slot]? = some id
  | .sweepBegin => true
  | .sweepNext [] _ => true
  | .sweepNext (slot :: _) _ => names[slot]? = some id
  | .sweepWait slot _ _ _ => names[slot]? = some id
  | .sweepRemove _ => true
  | .shutdownBegin => true
  | .shutdownNext [] => true
  | .shutdownNext (slot :: _) => names[slot]? = some id
  | .shutdownWait slot _ _ => names[slot]? = some id
  | .statusLookup id' => id' = id
  | .statusWait slot _ => names[slot]? = some id
  | _ => false

/-- The number of a holder among those of a name, if it was made under the name. -/
def ownSlot? (id : Id) (r : Registry Id) (slot : Nat) : Option Nat :=
  if r.names[slot]? = some id then some (rank (· = id) r.names slot) else none

/-- The number of a call among those about a name, if its next step is about the name. -/
def ownCall? (id : Id) (operations : List (Operation Id)) (r : Registry Id) (c : Nat) :
    Option Nat := do
  let stage ← r.calls[c]?
  if stage.isAbout id r.names then some (callNumber id operations c) else none

/-- What an action is for one name, with the numbers that holders and calls have there; `none`
for what is not about the name. -/
def ownAction? (id : Id) (operations : List (Operation Id)) (r : Registry Id) :
    Action Id → Option (Action Id)
  | .tick _ => none
  | .put id' factory => if id' = id then some (.put id' factory) else none
  | .own id' factory idleTimeout =>
    if id' = id then some (.own id' factory idleTimeout) else none
  | .disown slot => (ownSlot? id r slot).map .disown
  | .ask slot operation => (ownSlot? id r slot).map fun k => .ask k operation
  | .begin operation => if operation.concerns id then some (.begin operation) else none
  | .call c => (ownCall? id operations r c).map .call
  | .abandon c => (ownCall? id operations r c).map .abandon
  | .inner slot action => (ownSlot? id r slot).map fun k => .inner k action
  | .reap => some .reap
  | .drop slot => (ownSlot? id r slot).map .drop

theorem map_ownSlot?_eq_some_iff {f : Nat → Action Id} :
    (ownSlot? id r slot).map f = some b ↔
      r.names[slot]? = some id ∧ f (rank (· = id) r.names slot) = b := by
  rw [ownSlot?]
  split
  · next hslot => simp [hslot]
  · next hslot => simp [hslot]

theorem ownSlot?_eq_none_iff : ownSlot? id r slot = none ↔ r.names[slot]? ≠ some id := by
  simp [ownSlot?]

theorem map_ownCall?_eq_some_iff {f : Nat → Action Id} (hc : r.calls[c]? = some stage) :
    (ownCall? id operations r c).map f = some b ↔
      stage.isAbout id r.names = true ∧ f (callNumber id operations c) = b := by
  rw [ownCall?, hc]
  cases habout : stage.isAbout id r.names <;> simp [habout]

theorem ownCall?_eq_none_iff (hc : r.calls[c]? = some stage) :
    ownCall? id operations r c = none ↔ stage.isAbout id r.names = false := by
  rw [ownCall?, hc]
  cases habout : stage.isAbout id r.names <;> simp [habout]

theorem Stage.Fits.concerns {names : List Id} (hfits : stage.Fits names operation)
    (habout : stage.isAbout id names = true) : operation.concerns id = true := by
  -- a holder was made under one name
  have hunique {k : Nat} {id' : Id} (hslot : names[k]? = some id')
      (habout : decide (names[k]? = some id) = true) : decide (id' = id) = true := by
    rw [of_decide_eq_true habout] at hslot
    exact decide_eq_true (Option.some.inj hslot).symm
  cases hfits with
  | fetchLookup => exact habout
  | fetchWait hslot => exact hunique hslot habout
  | fetchRemove hslot => exact hunique hslot habout
  | cancelRemove => exact habout
  | cancelWait hslot => exact hunique hslot habout
  | statusLookup => exact habout
  | statusWait hslot => exact hunique hslot habout
  | sweepBegin => rfl
  | sweepNext hleft hlost => rfl
  | sweepWait hslot hleft hlost => rfl
  | sweepRemove hlost => rfl
  | shutdownBegin => rfl
  | shutdownNext hleft => rfl
  | shutdownWait hslot hleft => rfl
  | fetched => cases habout
  | abandoned => cases habout
  | cancelled => cases habout
  | swept => cases habout
  | stopped => cases habout
  | status => cases habout

/-! ## Counts of sweeps -/

/-- How many tasks a sweep has removed is about all names, and left out. -/
def Stage.settle : Stage Id → Stage Id
  | .swept _ => .swept 0
  | stage => stage

/-- The registry without the counts of its sweeps. -/
def settle (q : Registry Id) : Registry Id :=
  { q with calls := q.calls.map Stage.settle }

theorem Stage.settle_restrict (stage : Stage Id) (names : List Id) :
    (stage.restrict id names).settle = stage.restrict id names := by
  cases stage with
  | sweepWait slot k left lost =>
    simp only [restrict]
    split <;> rfl
  | shutdownWait slot k left =>
    simp only [restrict]
    split <;> rfl
  | _ => rfl

theorem settle_view : (view id operations r).settle = view id operations r := by
  simp only [settle, view, List.map_map]
  congr 1
  apply List.map_congr_left
  intro call _
  exact Stage.settle_restrict call.2 r.names

omit [DecidableEq Id] in
theorem settle_goTo (q : Registry Id) (c : Nat) (stage : Stage Id) :
    (q.goTo c stage).settle = q.settle.goTo c stage.settle := by
  simp only [settle, goTo, List.map_set]

/-! ## Steps of calls -/

theorem lookup?_view_of_eq {found : Option Nat} {id' : Id} (hlookup : r.lookup? id' = found)
    (hid : decide (id' = id) = true) :
    (view id operations r).lookup? id' = found.map (rank (· = id) r.names) := by
  cases of_decide_eq_true hid
  rw [lookup?_view, hlookup]

theorem innerReply?_view_of_eq {k : Nat} {reply : Reply}
    (hreply : r.innerReply? slot k = some reply)
    (hslot : decide (r.names[slot]? = some id) = true) :
    (view id operations r).innerReply? (rank (· = id) r.names slot) k = some reply := by
  rw [innerReply?_view (of_decide_eq_true hslot), hreply]

theorem view_beginOn_goTo (hlength : operations.length = r.calls.length)
    (hop : operations[c]? = some operation) (hc : r.calls[c]? = some stage)
    (hconcerns : operation.concerns id = true) (hslot : r.names[slot]? = some id) (h : Holder)
    (o : Task.Operation) (next : Stage Id) :
    view id operations ((r.beginOn slot h o).goTo c next) =
      ((view id operations r).beginOn (rank (· = id) r.names slot) h o).goTo
        (callNumber id operations c) (next.restrict id r.names) := by
  have hgo := view_goTo (r := r.beginOn slot h o) hlength hop hc hconcerns next
  rwa [beginOn, view_setHolder hslot, names_setHolder] at hgo

section

variable (hplaced : Placed operations r) (hop : operations[c]? = some operation)
  (hc : r.calls[c]? = some stage) (hfits : stage.Fits r.names operation)
  (hcall : r.CallStep c stage r')
include hplaced hop hc hfits hcall

/-- A step that is about the name is a step of the call among those about the name. -/
theorem CallStep.view_of_own (habout : stage.isAbout id r.names = true) :
    ∃ q, (view id operations r).CallStep (callNumber id operations c)
        (stage.restrict id r.names) q ∧ q.settle = view id operations r' := by
  have hlength := hplaced.length_eq
  have hconcerns := hfits.concerns habout
  have hdone {stage' : Stage Id} {q : Registry Id} (hsame : stage.restrict id r.names = stage')
      (hstep : (view id operations r).CallStep (callNumber id operations c) stage' q)
      (heq : view id operations r' = q) :
      ∃ q, (view id operations r).CallStep (callNumber id operations c)
        (stage.restrict id r.names) q ∧ q.settle = view id operations r' := by
    subst hsame
    refine ⟨q, hstep, ?_⟩
    rw [← heq]
    exact settle_view
  have hgo := view_goTo hlength hop hc hconcerns
  have hholder {k : Nat} {h : Holder} (hslot : r.holder? k = some h)
      (hname : r.names[k]? = some id) :
      (view id operations r).holder? (rank (· = id) r.names k) = some h := by
    rw [holder?_view hname, hslot]
  cases hcall with
  | fetchMissing hnone =>
    exact hdone rfl (.fetchMissing (lookup?_view_of_eq hnone habout)) (hgo _)
  | fetchFound hfound hslot =>
    cases of_decide_eq_true habout
    have hname := named_of_lookup? hplaced.named hfound
    exact hdone rfl (.fetchFound (lookup?_view_of_eq hfound habout) (hholder hslot hname))
      (view_beginOn_goTo hlength hop hc hconcerns hname _ _ _)
  | fetchFinal hreply hfinal =>
    exact hdone rfl (.fetchFinal (innerReply?_view_of_eq hreply habout) hfinal) (hgo _)
  | fetchReturn hreply hfinal =>
    exact hdone rfl (.fetchReturn (innerReply?_view_of_eq hreply habout) hfinal) (hgo _)
  | fetchAbandoned hreply =>
    exact hdone rfl (.fetchAbandoned (innerReply?_view_of_eq hreply habout)) (hgo _)
  | @fetchRemove slot result =>
    refine hdone rfl .fetchRemove ?_
    rw [← view_removeCurrent hplaced.named (of_decide_eq_true habout)]
    exact view_goTo (r := r.removeCurrent slot) hlength hop hc hconcerns _
  | cancelMissing hnone =>
    exact hdone rfl (.cancelMissing (lookup?_view_of_eq hnone habout)) (hgo _)
  | @cancelFound _ slot h hfound hslot =>
    cases of_decide_eq_true habout
    have hname := named_of_lookup? hplaced.named hfound
    refine hdone rfl (.cancelFound (lookup?_view_of_eq hfound habout) (hholder hslot hname)) ?_
    rw [← view_removeCurrent hplaced.named hname]
    exact view_beginOn_goTo (r := r.removeCurrent slot) hlength hop hc hconcerns hname _ _ _
  | cancelReturn hreply =>
    exact hdone rfl (.cancelReturn (innerReply?_view_of_eq hreply habout)) (hgo _)
  | sweepBegin =>
    refine hdone rfl .sweepBegin ?_
    rw [registered_view hplaced.named]
    exact hgo _
  | sweepDone => exact hdone rfl .sweepDone (hgo _)
  | @sweepCheck slot left lost h hslot =>
    have hname := of_decide_eq_true habout
    refine hdone (congrArg (Stage.sweepNext · _) (ownSlots_cons_self hname left))
      (.sweepCheck (hholder hslot hname)) ?_
    rw [view_beginOn_goTo hlength hop hc hconcerns hname, Stage.restrict_sweepWait hname]
  | @sweepLost slot k left lost hreply =>
    have hname := of_decide_eq_true habout
    refine hdone (Stage.restrict_sweepWait hname)
      (.sweepLost (innerReply?_view_of_eq hreply habout)) ?_
    rw [hgo, Stage.restrict, ownSlots_append, ownSlots_cons_self hname]
    rfl
  | sweepKept hreply =>
    exact hdone (Stage.restrict_sweepWait (of_decide_eq_true habout))
      (.sweepKept (innerReply?_view_of_eq hreply habout)) (hgo _)
  | @sweepRemove lost =>
    -- the sweep of all names counts more than the sweep of this one
    refine ⟨_, .sweepRemove, ?_⟩
    have hcalls : (lost.foldl removeCurrent r).calls = r.calls := by rw [foldl_removeCurrent]
    rw [settle_goTo, ← view_removeAll id operations hplaced.named lost, settle_view]
    rw [← hcalls] at hlength hc
    exact (view_goTo hlength hop hc hconcerns (.swept lost.length)).symm
  | shutdownBegin =>
    refine hdone rfl .shutdownBegin ?_
    rw [registered_view hplaced.named]
    exact view_goTo (r := { r with entries := [], reaperDue := none }) hlength hop hc hconcerns _
  | shutdownDone => exact hdone rfl .shutdownDone (hgo _)
  | @shutdownCancel slot left h hslot =>
    have hname := of_decide_eq_true habout
    refine hdone (congrArg Stage.shutdownNext (ownSlots_cons_self hname left))
      (.shutdownCancel (hholder hslot hname)) ?_
    rw [view_beginOn_goTo hlength hop hc hconcerns hname, Stage.restrict_shutdownWait hname]
  | shutdownReturn hreply =>
    exact hdone (Stage.restrict_shutdownWait (of_decide_eq_true habout))
      (.shutdownReturn (innerReply?_view_of_eq hreply habout)) (hgo _)
  | statusMissing hnone =>
    exact hdone rfl (.statusMissing (lookup?_view_of_eq hnone habout)) (hgo _)
  | statusFound hfound hslot =>
    cases of_decide_eq_true habout
    have hname := named_of_lookup? hplaced.named hfound
    exact hdone rfl (.statusFound (lookup?_view_of_eq hfound habout) (hholder hslot hname))
      (view_beginOn_goTo hlength hop hc hconcerns hname _ _ _)
  | statusReturn hreply =>
    exact hdone rfl (.statusReturn (innerReply?_view_of_eq hreply habout)) (hgo _)

/-- A step that is not about the name changes nothing that belongs to the name. -/
theorem CallStep.view_of_other (habout : stage.isAbout id r.names = false) :
    view id operations r' = view id operations r := by
  have hlength := hplaced.length_eq
  have hne {k : Nat} {id' : Id} (hslot : r.names[k]? = some id') (hid : id' ≠ id) :
      r.names[k]? ≠ some id := by
    rw [hslot]
    exact fun heq => hid (Option.some.inj heq)
  have hname {k : Nat} {id' : Id} (hslot : r.names[k]? = some id')
      (hother : decide (r.names[k]? = some id) = false) : decide (id' = id) = false := by
    apply decide_eq_false
    rintro rfl
    exact of_decide_eq_false hother hslot
  -- calls about another name, on a holder that was made under that name
  have hbegin {q : Registry Id} {k : Nat} {h : Holder} {o : Task.Operation}
      (hq : q.calls[c]? = some stage) (hother : q.names[k]? ≠ some id)
      (hconcerns : operation.concerns id = false) (next : Stage Id) :
      view id operations ((q.beginOn k h o).goTo c next) = view id operations q := by
    rw [view_goTo_of_not (r := q.beginOn k h o) hop hq hconcerns]
    exact view_setHolder_of_ne hother _
  -- sweeps and shutdowns, at a holder of another name
  have hpass {k : Nat} {h : Holder} {o : Task.Operation} {next : Stage Id}
      (hother : r.names[k]? ≠ some id)
      (hsame : next.restrict id r.names = stage.restrict id r.names) :
      view id operations ((r.beginOn k h o).goTo c next) = view id operations r := by
    have hnames : (r.beginOn k h o).names = r.names := names_setHolder ..
    rw [← hnames] at hsame
    rw [view_goTo_of_eq (r := r.beginOn k h o) hlength hop hc hsame]
    exact view_setHolder_of_ne hother _
  cases hcall with
  | fetchMissing hnone =>
    cases hfits
    exact view_goTo_of_not hop hc habout _
  | fetchFound hfound hslot =>
    cases hfits
    have hother := hne (named_of_lookup? hplaced.named hfound) (of_decide_eq_false habout)
    exact hbegin hc hother habout _
  | fetchFinal hreply hfinal | fetchReturn hreply hfinal | fetchAbandoned hreply =>
    cases hfits with
    | fetchWait hslot => exact view_goTo_of_not hop hc (hname hslot habout) _
  | @fetchRemove slot result =>
    cases hfits with
    | fetchRemove hslot =>
      rw [view_goTo_of_not (r := r.removeCurrent slot) hop hc (hname hslot habout)]
      exact view_removeCurrent_of_ne hplaced.named (of_decide_eq_false habout)
  | cancelMissing hnone =>
    cases hfits
    exact view_goTo_of_not hop hc habout _
  | @cancelFound _ slot _ hfound hslot =>
    cases hfits
    have hother := hne (named_of_lookup? hplaced.named hfound) (of_decide_eq_false habout)
    rw [hbegin (q := r.removeCurrent slot) hc hother habout]
    exact view_removeCurrent_of_ne hplaced.named hother
  | cancelReturn hreply =>
    cases hfits with
    | cancelWait hslot => exact view_goTo_of_not hop hc (hname hslot habout) _
  | sweepCheck hslot =>
    have hother := of_decide_eq_false habout
    refine hpass hother ?_
    rw [Stage.restrict_sweepWait_of_ne hother, Stage.restrict, ownSlots_cons_of_ne hother]
  | sweepLost hreply =>
    have hother := of_decide_eq_false habout
    apply view_goTo_of_eq hlength hop hc
    rw [Stage.restrict_sweepWait_of_ne hother, Stage.restrict, ownSlots_append,
      ownSlots_cons_of_ne hother, ownSlots_nil, List.append_nil]
  | sweepKept hreply =>
    apply view_goTo_of_eq hlength hop hc
    rw [Stage.restrict_sweepWait_of_ne (of_decide_eq_false habout), Stage.restrict]
  | shutdownCancel hslot =>
    have hother := of_decide_eq_false habout
    refine hpass hother ?_
    rw [Stage.restrict_shutdownWait_of_ne hother, Stage.restrict, ownSlots_cons_of_ne hother]
  | shutdownReturn hreply =>
    apply view_goTo_of_eq hlength hop hc
    rw [Stage.restrict_shutdownWait_of_ne (of_decide_eq_false habout), Stage.restrict]
  | statusMissing hnone =>
    cases hfits
    exact view_goTo_of_not hop hc habout _
  | statusFound hfound hslot =>
    cases hfits
    have hother := hne (named_of_lookup? hplaced.named hfound) (of_decide_eq_false habout)
    exact hbegin hc hother habout _
  | statusReturn hreply =>
    cases hfits with
    | statusWait hslot => exact view_goTo_of_not hop hc (hname hslot habout) _
  | sweepBegin => cases habout
  | sweepDone => cases habout
  | sweepRemove => cases habout
  | shutdownBegin => cases habout
  | shutdownDone => cases habout

end

/-! ## New holders and calls -/

theorem ownSlots_append_names {names : List Id} {slots : List Nat}
    (hslots : ∀ slot ∈ slots, slot < names.length) (more : List Id) :
    ownSlots id (names ++ more) slots = ownSlots id names slots := by
  have hfilter : slots.filter (fun slot => (names ++ more)[slot]? = some id) =
      slots.filter fun slot => names[slot]? = some id := by
    apply List.filter_congr
    intro slot hslot
    rw [List.getElem?_append_left (hslots slot hslot)]
  rw [ownSlots, hfilter, ownSlots]
  apply List.map_congr_left
  intro slot hslot
  exact rank_append (Nat.le_of_lt (hslots slot (List.mem_filter.mp hslot).1)) more

/-- New holders leave what belongs to a name of a call as it is. -/
theorem Stage.Fits.restrict_append {names : List Id} (hfits : stage.Fits names operation)
    (more : List Id) : stage.restrict id (names ++ more) = stage.restrict id names := by
  have hrank {k : Nat} {id' : Id} (hslot : names[k]? = some id') :
      rank (· = id) (names ++ more) k = rank (· = id) names k :=
    rank_append (Nat.le_of_lt (List.getElem?_eq_some_iff.mp hslot).1) more
  cases hfits with
  | fetchWait hslot => exact congrArg (Stage.fetchWait · _) (hrank hslot)
  | fetchRemove hslot => exact congrArg (Stage.fetchRemove · _) (hrank hslot)
  | cancelWait hslot => exact congrArg (Stage.cancelWait · _) (hrank hslot)
  | statusWait hslot => exact congrArg (Stage.statusWait · _) (hrank hslot)
  | sweepNext hleft hlost =>
    rw [Stage.restrict, ownSlots_append_names hleft, ownSlots_append_names hlost, Stage.restrict]
  | sweepWait hslot hleft hlost =>
    rw [Stage.restrict, ownSlots_append_names hleft, ownSlots_append_names hlost,
      rank_append (Nat.le_of_lt hslot), List.getElem?_append_left hslot, Stage.restrict]
  | sweepRemove hlost => exact congrArg Stage.sweepRemove (ownSlots_append_names hlost more)
  | shutdownNext hleft => exact congrArg Stage.shutdownNext (ownSlots_append_names hleft more)
  | shutdownWait hslot hleft =>
    rw [Stage.restrict, ownSlots_append_names hleft, rank_append (Nat.le_of_lt hslot),
      List.getElem?_append_left hslot, Stage.restrict]
  | _ => rfl

theorem view_append_slots (hplaced : Placed operations r) (more : List (Slot Id)) :
    view id operations { r with slots := r.slots ++ more } =
      { view id operations r with
        slots := (view id operations r).slots ++ more.filter fun s => s.id = id } := by
  have hnames : ({ r with slots := r.slots ++ more } : Registry Id).names =
      r.names ++ more.map Slot.id := List.map_append
  have hentries : ((r.entries.filter fun entry => entry.1 = id).map fun entry =>
        (entry.1, rank (· = id) (r.names ++ more.map Slot.id) entry.2)) =
      (r.entries.filter fun entry => entry.1 = id).map fun entry =>
        (entry.1, rank (· = id) r.names entry.2) := by
    apply List.map_congr_left
    intro entry hentry
    have hslot := hplaced.named entry (List.mem_filter.mp hentry).1
    rw [rank_append (Nat.le_of_lt (List.getElem?_eq_some_iff.mp hslot).1)]
  have hcalls : (((operations.zip r.calls).filter fun c => c.1.concerns id).map fun c =>
        c.2.restrict id (r.names ++ more.map Slot.id)) =
      ((operations.zip r.calls).filter fun c => c.1.concerns id).map fun c =>
        c.2.restrict id r.names := by
    apply List.map_congr_left
    intro call hcall
    obtain ⟨k, hk⟩ := List.getElem?_of_mem (List.mem_filter.mp hcall).1
    obtain ⟨hop, hc⟩ := List.getElem?_zip_eq_some.mp hk
    obtain ⟨operation, hop', hfits⟩ := hplaced.exists_operation hc
    exact hfits.restrict_append _
  simp only [view, hnames, hentries, hcalls, List.filter_append]

theorem view_addSlot (hplaced : Placed operations r) (factory : Factory) (idleTimeout : Nat)
    (owned : Bool) : view id operations (r.addSlot id factory idleTimeout owned) =
      (view id operations r).addSlot id factory idleTimeout owned := by
  rw [addSlot, view_append_slots hplaced]
  simp [addSlot, view]

theorem view_addSlot_of_ne (hplaced : Placed operations r) (hne : other ≠ id) (factory : Factory)
    (idleTimeout : Nat) (owned : Bool) :
    view id operations (r.addSlot other factory idleTimeout owned) = view id operations r := by
  rw [addSlot, view_append_slots hplaced]
  simp [hne]

variable (id operations) in
theorem view_append_entries (r : Registry Id) (more : List (Id × Nat)) :
    view id operations { r with entries := r.entries ++ more } =
      { view id operations r with
        entries := (view id operations r).entries ++
          (more.filter fun entry => entry.1 = id).map fun entry =>
            (entry.1, rank (· = id) r.names entry.2) } := by
  simp only [view, List.filter_append, List.map_append, names]

theorem view_append_call (hlength : operations.length = r.calls.length) (operation : Operation Id)
    (stage : Stage Id) :
    view id (operations ++ [operation]) { r with calls := r.calls ++ [stage] } =
      { view id operations r with
        calls := (view id operations r).calls ++
          if operation.concerns id then [stage.restrict id r.names] else [] } := by
  simp only [view, List.zip_append hlength, List.filter_append, List.map_append, names]
  cases hconcerns : operation.concerns id with
  | false => simp [hconcerns]
  | true => simp [hconcerns]

theorem Stage.restrict_firstStage (operation : Operation Id) (names : List Id) :
    (firstStage operation).restrict id names = firstStage operation := by
  cases operation <;> rfl

/-! ## Holders nobody can reach -/

/-- A call that works on a holder is about the name of the holder. -/
theorem Stage.Fits.concerns_of_uses {names : List Id} (hfits : stage.Fits names operation)
    (hslot : names[slot]? = some id) (huses : stage.uses slot = true) :
    operation.concerns id = true := by
  have hsame {k : Nat} {id' : Id} (hname : names[k]? = some id')
      (huses : decide (slot = k) = true) : decide (id' = id) = true := by
    cases of_decide_eq_true huses
    exact decide_eq_true (Option.some.inj (hname.symm.trans hslot))
  cases hfits with
  | fetchWait hname => exact hsame hname huses
  | fetchRemove hname => exact hsame hname huses
  | cancelWait hname => exact hsame hname huses
  | statusWait hname => exact hsame hname huses
  | sweepNext hleft hlost => rfl
  | sweepWait hname hleft hlost => rfl
  | sweepRemove hlost => rfl
  | shutdownNext hleft => rfl
  | shutdownWait hname hleft => rfl
  | _ => cases huses

theorem Stage.Fits.uses_restrict (hfits : stage.Fits r.names operation)
    (hconcerns : operation.concerns id = true) (hslot : r.names[slot]? = some id) :
    (stage.restrict id r.names).uses (rank (· = id) r.names slot) = stage.uses slot := by
  have hsame {k : Nat} (hname : r.names[k]? = some id) :
      decide (rank (· = id) r.names slot = rank (· = id) r.names k) = decide (slot = k) :=
    decide_eq_decide.mpr (rank_inj hslot (decide_eq_true rfl) hname (decide_eq_true rfl))
  have hcontains (slots : List Nat) :
      (ownSlots id r.names slots).contains (rank (· = id) r.names slot) = slots.contains slot := by
    rw [Bool.eq_iff_iff, List.contains_iff_mem, List.contains_iff_mem]
    exact mem_ownSlots_iff hslot
  cases hfits with
  | fetchWait hname | fetchRemove hname | cancelWait hname | statusWait hname =>
    cases of_decide_eq_true hconcerns
    exact hsame hname
  | sweepNext hleft hlost => simp only [Stage.restrict, Stage.uses, hcontains]
  | @sweepWait k _ left lost hname hleft hlost =>
    by_cases hown : r.names[k]? = some id
    · rw [restrict_sweepWait hown]
      simp only [Stage.uses, hcontains, hsame hown]
    · have hne : slot ≠ k := by
        rintro rfl
        exact hown hslot
      rw [restrict_sweepWait_of_ne hown]
      simp only [Stage.uses, hcontains, hne, decide_false, Bool.false_or]
  | sweepRemove hlost => exact hcontains _
  | shutdownNext hleft => exact hcontains _
  | @shutdownWait k _ left hname hleft =>
    by_cases hown : r.names[k]? = some id
    · rw [restrict_shutdownWait hown]
      simp only [Stage.uses, hcontains, hsame hown]
    · have hne : slot ≠ k := by
        rintro rfl
        exact hown hslot
      rw [restrict_shutdownWait_of_ne hown]
      simp only [Stage.uses, hcontains, hne, decide_false, Bool.false_or]
  | _ => rfl

theorem any_uses_view (hplaced : Placed operations r) (hslot : r.names[slot]? = some id) :
    (view id operations r).calls.any (Stage.uses (rank (· = id) r.names slot)) =
      r.calls.any (Stage.uses slot) := by
  rw [Bool.eq_iff_iff, List.any_eq_true, List.any_eq_true]
  constructor
  · rintro ⟨stage, hstage, huses⟩
    obtain ⟨call, hcall, rfl⟩ := List.mem_map.mp hstage
    obtain ⟨hmem, hconcerns⟩ := List.mem_filter.mp hcall
    obtain ⟨k, hk⟩ := List.getElem?_of_mem hmem
    obtain ⟨hop, hc⟩ := List.getElem?_zip_eq_some.mp hk
    obtain ⟨operation, hop', hfits⟩ := hplaced.exists_operation hc
    cases Option.some.inj (hop.symm.trans hop')
    rw [hfits.uses_restrict hconcerns hslot] at huses
    exact ⟨call.2, List.mem_of_getElem? hc, huses⟩
  · rintro ⟨stage, hstage, huses⟩
    obtain ⟨k, hc⟩ := List.getElem?_of_mem hstage
    obtain ⟨operation, hop, hfits⟩ := hplaced.exists_operation hc
    have hconcerns := hfits.concerns_of_uses hslot huses
    refine ⟨stage.restrict id r.names, ?_, ?_⟩
    · exact List.mem_of_getElem? (getElem?_calls_view hplaced.length_eq hop hc hconcerns)
    · rw [hfits.uses_restrict hconcerns hslot, huses]

theorem isUnreachable_view (hplaced : Placed operations r) (hslot : r.names[slot]? = some id) :
    (view id operations r).isUnreachable (rank (· = id) r.names slot) = r.isUnreachable slot := by
  obtain ⟨s, hs, -⟩ := exists_slot hslot
  have hregistered : (view id operations r).registered.contains (rank (· = id) r.names slot) =
      r.registered.contains slot := by
    rw [registered_view hplaced.named, Bool.eq_iff_iff, List.contains_iff_mem,
      List.contains_iff_mem]
    exact mem_ownSlots_iff hslot
  rw [isUnreachable, getElem?_slots_view operations hs hslot, hregistered,
    any_uses_view hplaced hslot, isUnreachable, hs]

/-! ## Steps -/

section

variable (hplaced : Placed operations r) (hstep : r.Step a r')
include hplaced hstep

/-- A step that is about the name is a step of the part that belongs to the name. -/
theorem Step.view_of_own (hown : ownAction? id operations r a = some b) :
    ∃ q, (view id operations r).Step b q ∧
      q.settle = view id (operations ++ a.operation?.toList) r' := by
  have hend {q : Registry Id} (hstep : (view id operations r).Step b q)
      (heq : view id (operations ++ a.operation?.toList) r' = q) :
      ∃ q, (view id operations r).Step b q ∧
        q.settle = view id (operations ++ a.operation?.toList) r' := by
    refine ⟨q, hstep, ?_⟩
    rw [← heq]
    exact settle_view
  have hdone {q : Registry Id} (hnone : a.operation? = none)
      (hstep : (view id operations r).Step b q) (heq : view id operations r' = q) :
      ∃ q, (view id operations r).Step b q ∧
        q.settle = view id (operations ++ a.operation?.toList) r' := by
    apply hend hstep
    rw [hnone, Option.toList_none, List.append_nil, heq]
  cases hstep with
  | tick ms => cases hown
  | @put id' factory hfree =>
    obtain ⟨hid, hb⟩ := Option.ite_none_right_eq_some.mp hown
    cases hid
    cases hb
    refine hdone rfl (.put ?_) ?_
    · rw [lookup?_view, hfree]
      rfl
    · -- the new holder is the last of all, and the last of those of the name
      have hrank : rank (· = id) (r.names ++ [id]) r.slots.length =
          (view id operations r).slots.length := by
        rw [rank_append (Nat.le_of_eq length_names.symm), rank_names, rank_length]
        rfl
      have hentries := view_append_entries id operations
        (r.addSlot id factory r.config.idleTimeout false) [(id, r.slots.length)]
      rw [view_addSlot hplaced, names_addSlot] at hentries
      refine hentries.trans ?_
      simp [hrank, addSlot, view]
  | own id' factory idleTimeout =>
    obtain ⟨hid, hb⟩ := Option.ite_none_right_eq_some.mp hown
    cases hid
    cases hb
    exact hdone rfl (.own id factory idleTimeout) (view_addSlot hplaced ..)
  | disown slot =>
    obtain ⟨hslot, rfl⟩ := map_ownSlot?_eq_some_iff.mp hown
    exact hdone rfl (.disown _) (view_modify (fun _ => rfl) hslot)
  | @inner slot o s h' hs hallowed hinner =>
    obtain ⟨hslot, rfl⟩ := map_ownSlot?_eq_some_iff.mp hown
    exact hdone rfl (.inner (getElem?_slots_view operations hs hslot) hallowed hinner)
      (view_setHolder hslot _)
  | ask hs howned =>
    obtain ⟨hslot, rfl⟩ := map_ownSlot?_eq_some_iff.mp hown
    exact hdone rfl (.ask (getElem?_slots_view operations hs hslot) howned) (view_setHolder hslot _)
  | drop hs hunreachable =>
    obtain ⟨hslot, rfl⟩ := map_ownSlot?_eq_some_iff.mp hown
    refine hdone rfl (.drop (getElem?_slots_view operations hs hslot) ?_) (view_setHolder hslot _)
    rw [isUnreachable_view hplaced hslot, hunreachable]
  | begin operation =>
    obtain ⟨hconcerns, hb⟩ := Option.ite_none_right_eq_some.mp hown
    cases hb
    refine hend (.begin operation) ?_
    rw [Action.operation?, Option.toList_some, view_append_call hplaced.length_eq,
      if_pos hconcerns, Stage.restrict_firstStage]
  | reap hdue hnow =>
    cases hown
    let due' := (r.clock / r.config.reaperPeriod + 1) * r.config.reaperPeriod
    exact hend (.reap hdue hnow) (view_append_call (r := { r with reaperDue := some due' })
      hplaced.length_eq .sweep .sweepBegin)
  | @call c stage r' hc hcall =>
    obtain ⟨habout, rfl⟩ := (map_ownCall?_eq_some_iff hc).mp hown
    obtain ⟨operation, hop, hfits⟩ := hplaced.exists_operation hc
    obtain ⟨q, hcall', hq⟩ := hcall.view_of_own hplaced hop hc hfits habout
    refine ⟨q, .call ?_ hcall', ?_⟩
    · exact getElem?_calls_view hplaced.length_eq hop hc (hfits.concerns habout)
    · rw [hq]
      exact congrArg (view id · r') (List.append_nil operations).symm
  | abandonLookup hc =>
    obtain ⟨habout, rfl⟩ := (map_ownCall?_eq_some_iff hc).mp hown
    obtain ⟨operation, hop, hfits⟩ := hplaced.exists_operation hc
    have hconcerns := hfits.concerns habout
    exact hdone rfl (.abandonLookup (getElem?_calls_view hplaced.length_eq hop hc hconcerns))
      (view_goTo hplaced.length_eq hop hc hconcerns _)
  | abandonWait hc hslot hinner =>
    obtain ⟨habout, rfl⟩ := (map_ownCall?_eq_some_iff hc).mp hown
    obtain ⟨operation, hop, hfits⟩ := hplaced.exists_operation hc
    have hname := of_decide_eq_true habout
    have hc' := getElem?_calls_view hplaced.length_eq hop hc (hfits.concerns habout)
    refine hdone rfl (.abandonWait hc' ?_ hinner) (view_setHolder hname _)
    rw [holder?_view hname, hslot]

/-- A step that is not about the name changes nothing that belongs to the name, the time apart. -/
theorem Step.view_of_other (hown : ownAction? id operations r a = none) :
    ({ view id (operations ++ a.operation?.toList) r' with clock := r.clock } : Registry Id) =
      view id operations r := by
  have hdone (hnone : a.operation? = none)
      (heq : view id operations r' = view id operations r) :
      ({ view id (operations ++ a.operation?.toList) r' with clock := r.clock } : Registry Id) =
        view id operations r := by
    rw [hnone, Option.toList_none, List.append_nil, heq]
    rfl
  have hslot {slot : Nat} {f : Nat → Action Id} (hown : (ownSlot? id r slot).map f = none) :
      r.names[slot]? ≠ some id :=
    ownSlot?_eq_none_iff.mp (Option.map_eq_none_iff.mp hown)
  cases hstep with
  | tick ms => exact congrArg (view id · r) (List.append_nil operations)
  | @put id' factory hfree =>
    have hid : id' ≠ id := fun heq => nomatch (if_pos heq).symm.trans hown
    refine hdone rfl ?_
    refine (view_append_entries id operations
      (r.addSlot id' factory r.config.idleTimeout false) [(id', r.slots.length)]).trans ?_
    rw [view_addSlot_of_ne hplaced hid]
    simp [hid]
  | own id' factory idleTimeout =>
    have hid : id' ≠ id := fun heq => nomatch (if_pos heq).symm.trans hown
    exact hdone rfl (view_addSlot_of_ne hplaced hid ..)
  | disown slot => exact hdone rfl (view_modify_of_ne (fun _ => rfl) (hslot hown))
  | inner hs hallowed hinner => exact hdone rfl (view_setHolder_of_ne (hslot hown) _)
  | ask hs howned => exact hdone rfl (view_setHolder_of_ne (hslot hown) _)
  | drop hs hunreachable => exact hdone rfl (view_setHolder_of_ne (hslot hown) _)
  | begin operation =>
    have hconcerns : ¬operation.concerns id = true := fun heq =>
      nomatch (if_pos heq).symm.trans hown
    rw [Action.operation?, Option.toList_some, view_append_call hplaced.length_eq,
      if_neg hconcerns, List.append_nil]
    rfl
  | reap hdue hnow => cases hown
  | call hc hcall =>
    have habout := (ownCall?_eq_none_iff hc).mp (Option.map_eq_none_iff.mp hown)
    obtain ⟨operation, hop, hfits⟩ := hplaced.exists_operation hc
    exact hdone rfl (hcall.view_of_other hplaced hop hc hfits habout)
  | abandonLookup hc =>
    have habout := (ownCall?_eq_none_iff hc).mp (Option.map_eq_none_iff.mp hown)
    obtain ⟨operation, hop, hfits⟩ := hplaced.exists_operation hc
    cases hfits
    exact hdone rfl (view_goTo_of_not hop hc habout _)
  | abandonWait hc hslot hinner =>
    have habout := (ownCall?_eq_none_iff hc).mp (Option.map_eq_none_iff.mp hown)
    exact hdone rfl (view_setHolder_of_ne (of_decide_eq_false habout) _)

end

end PagedQuery.Task.Registry
