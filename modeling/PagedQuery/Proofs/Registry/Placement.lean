import PagedQuery.Proofs.Outcome
import PagedQuery.Proofs.Registry.View

/-!
# Calls and the names they are about

A call works on holders that were made under the name it was begun for, and a
sweep or a shutdown on holders that exist. So whatever a call reads or changes
belongs to its name.

* `Registry.Stage.Fits`: the points that a call for an operation can reach;
* `Registry.Placed`: the map and all calls are about their own names;
* `Registry.Placed.step`: every step keeps them so.
-/

namespace PagedQuery.Task.Registry

variable {Id : Type} {names : List Id} {operation : Operation Id} {stage : Stage Id}

/-- The points that a call for an operation can reach, with the holders it works on there. -/
inductive Stage.Fits (names : List Id) : Operation Id → Stage Id → Prop where
  -- fetches
  | fetchLookup {id : Id} {timeout : Nat} : Fits names (.fetch id timeout) (.fetchLookup id timeout)
  | fetchWait {id : Id} {timeout slot k : Nat} (hslot : names[slot]? = some id) :
    Fits names (.fetch id timeout) (.fetchWait slot k)
  | fetchRemove {id : Id} {timeout slot : Nat} {result : FetchResult}
    (hslot : names[slot]? = some id) : Fits names (.fetch id timeout) (.fetchRemove slot result)
  | fetched {id : Id} {timeout : Nat} {result : FetchResult} :
    Fits names (.fetch id timeout) (.fetched result)
  | abandoned {id : Id} {timeout : Nat} : Fits names (.fetch id timeout) .abandoned
  -- cancels
  | cancelRemove {id : Id} : Fits names (.cancel id) (.cancelRemove id)
  | cancelWait {id : Id} {slot k : Nat} (hslot : names[slot]? = some id) :
    Fits names (.cancel id) (.cancelWait slot k)
  | cancelled {id : Id} : Fits names (.cancel id) .cancelled
  -- sweeps
  | sweepBegin : Fits names .sweep .sweepBegin
  | sweepNext {left lost : List Nat} (hleft : ∀ slot ∈ left, slot < names.length)
    (hlost : ∀ slot ∈ lost, slot < names.length) : Fits names .sweep (.sweepNext left lost)
  | sweepWait {slot k : Nat} {left lost : List Nat} (hslot : slot < names.length)
    (hleft : ∀ slot ∈ left, slot < names.length) (hlost : ∀ slot ∈ lost, slot < names.length) :
    Fits names .sweep (.sweepWait slot k left lost)
  | sweepRemove {lost : List Nat} (hlost : ∀ slot ∈ lost, slot < names.length) :
    Fits names .sweep (.sweepRemove lost)
  | swept {removed : Nat} : Fits names .sweep (.swept removed)
  -- shutdowns
  | shutdownBegin : Fits names .shutdown .shutdownBegin
  | shutdownNext {left : List Nat} (hleft : ∀ slot ∈ left, slot < names.length) :
    Fits names .shutdown (.shutdownNext left)
  | shutdownWait {slot k : Nat} {left : List Nat} (hslot : slot < names.length)
    (hleft : ∀ slot ∈ left, slot < names.length) :
    Fits names .shutdown (.shutdownWait slot k left)
  | stopped : Fits names .shutdown .stopped
  -- status requests
  | statusLookup {id : Id} : Fits names (.status id) (.statusLookup id)
  | statusWait {id : Id} {slot k : Nat} (hslot : names[slot]? = some id) :
    Fits names (.status id) (.statusWait slot k)
  | status {id : Id} {found : Option (Binary64 × TaskState)} :
    Fits names (.status id) (.status found)

theorem Stage.fits_firstStage (operation : Operation Id) :
    (firstStage operation).Fits names operation := by
  cases operation with
  | fetch id timeout => exact .fetchLookup
  | cancel id => exact .cancelRemove
  | sweep => exact .sweepBegin
  | shutdown => exact .shutdownBegin
  | status id => exact .statusLookup

/-- Holders stay under the names that they were made under. -/
theorem Stage.Fits.append (hfits : stage.Fits names operation) (more : List Id) :
    stage.Fits (names ++ more) operation := by
  have hname {slot : Nat} {id : Id} (hslot : names[slot]? = some id) :
      (names ++ more)[slot]? = some id := by
    rw [List.getElem?_append_left (List.getElem?_eq_some_iff.mp hslot).1, hslot]
  have hlt {slot : Nat} (hslot : slot < names.length) : slot < (names ++ more).length := by
    rw [List.length_append]
    exact Nat.lt_add_right _ hslot
  cases hfits with
  | fetchLookup => exact .fetchLookup
  | fetchWait hslot => exact .fetchWait (hname hslot)
  | fetchRemove hslot => exact .fetchRemove (hname hslot)
  | fetched => exact .fetched
  | abandoned => exact .abandoned
  | cancelRemove => exact .cancelRemove
  | cancelWait hslot => exact .cancelWait (hname hslot)
  | cancelled => exact .cancelled
  | sweepBegin => exact .sweepBegin
  | sweepNext hleft hlost =>
    exact .sweepNext (fun k hk => hlt (hleft k hk)) fun k hk => hlt (hlost k hk)
  | sweepWait hslot hleft hlost =>
    exact .sweepWait (hlt hslot) (fun k hk => hlt (hleft k hk)) fun k hk => hlt (hlost k hk)
  | sweepRemove hlost => exact .sweepRemove fun k hk => hlt (hlost k hk)
  | swept => exact .swept
  | shutdownBegin => exact .shutdownBegin
  | shutdownNext hleft => exact .shutdownNext fun k hk => hlt (hleft k hk)
  | shutdownWait hslot hleft => exact .shutdownWait (hlt hslot) fun k hk => hlt (hleft k hk)
  | stopped => exact .stopped
  | statusLookup => exact .statusLookup
  | statusWait hslot => exact .statusWait (hname hslot)
  | status => exact .status

/-! ## Names of holders -/

section

variable [DecidableEq Id] {r r' : Registry Id} {a : Action Id} {operations : List (Operation Id)}
  {slot c : Nat}

/-- The name that an action makes a holder under. -/
def Action.newName? : Action Id → Option Id
  | .put id _ => some id
  | .own id _ _ => some id
  | _ => none

/-- The operation that an action begins a call for. -/
def Action.operation? : Action Id → Option (Operation Id)
  | .begin operation => some operation
  | .reap => some .sweep
  | _ => none

omit [DecidableEq Id] in
theorem names_setHolder (r : Registry Id) (slot : Nat) (h : Holder) :
    (r.setHolder slot h).names = r.names :=
  names_modify fun _ => rfl

omit [DecidableEq Id] in
theorem names_addSlot (id : Id) (factory : Factory) (idleTimeout : Nat) (owned : Bool) :
    (r.addSlot id factory idleTimeout owned).names = r.names ++ [id] :=
  List.map_append

theorem CallStep.names_eq (hcall : r.CallStep c stage r') : r'.names = r.names := by
  cases hcall with
  | fetchFound hlookup hslot | cancelFound hlookup hslot | sweepCheck hslot
  | shutdownCancel hslot | statusFound hlookup hslot => exact names_setHolder ..
  | sweepRemove =>
    rw [foldl_removeCurrent]
    rfl
  | _ => rfl

theorem Step.names_eq (hstep : r.Step a r') : r'.names = r.names ++ a.newName?.toList := by
  have hsame (heq : r'.names = r.names) (hnone : a.newName? = none) :
      r'.names = r.names ++ a.newName?.toList := by
    rw [heq, hnone]
    exact (List.append_nil _).symm
  cases hstep with
  | put hfree => exact names_addSlot ..
  | own id factory idleTimeout => exact names_addSlot ..
  | disown slot => exact hsame (names_modify fun _ => rfl) rfl
  | inner hs hallowed hinner => exact hsame (names_setHolder ..) rfl
  | ask hs howned => exact hsame (names_setHolder ..) rfl
  | drop hs hunreachable => exact hsame (names_setHolder ..) rfl
  | abandonWait hc hslot hinner => exact hsame (names_setHolder ..) rfl
  | call hc hcall => exact hsame hcall.names_eq rfl
  | _ => exact hsame rfl rfl

omit [DecidableEq Id] in
theorem length_names : r.names.length = r.slots.length :=
  List.length_map _

omit [DecidableEq Id] in
theorem Named.lt_of_registered (hnamed : r.Named) (hslot : slot ∈ r.registered) :
    slot < r.names.length := by
  obtain ⟨id, hentry⟩ := mem_registered_iff.mp hslot
  exact (List.getElem?_eq_some_iff.mp (hnamed _ hentry)).1

theorem Named.step (hnamed : r.Named) (hstep : r.Step a r') : r'.Named := by
  intro entry hentry
  rw [hstep.names_eq]
  rcases (hstep.mem_entries_iff entry).mp hentry with ⟨hold, -⟩ | ⟨id, factory, rfl, rfl⟩
  · have hslot := hnamed entry hold
    rw [List.getElem?_append_left (List.getElem?_eq_some_iff.mp hslot).1, hslot]
  · rw [← length_names, List.getElem?_append_right (Nat.le_refl _), Nat.sub_self]
    rfl

/-! ## Calls -/

/-- A call goes on for its operation. -/
theorem CallStep.fits (hnamed : r.Named) (hcall : r.CallStep c stage r')
    (hfits : stage.Fits r.names operation) :
    ∃ next, r'.calls = r.calls.set c next ∧ next.Fits r.names operation := by
  cases hcall with
  | fetchMissing hlookup =>
    cases hfits
    exact ⟨_, rfl, .fetched⟩
  | fetchFound hlookup hslot =>
    cases hfits
    exact ⟨_, rfl, .fetchWait (named_of_lookup? hnamed hlookup)⟩
  | fetchFinal hreply hfinal =>
    cases hfits with
    | fetchWait hslot => exact ⟨_, rfl, .fetchRemove hslot⟩
  | fetchReturn hreply hfinal =>
    cases hfits
    exact ⟨_, rfl, .fetched⟩
  | fetchAbandoned hreply =>
    cases hfits
    exact ⟨_, rfl, .abandoned⟩
  | fetchRemove =>
    cases hfits
    exact ⟨_, rfl, .fetched⟩
  | cancelMissing hlookup =>
    cases hfits
    exact ⟨_, rfl, .cancelled⟩
  | cancelFound hlookup hslot =>
    cases hfits
    exact ⟨_, rfl, .cancelWait (named_of_lookup? hnamed hlookup)⟩
  | cancelReturn hreply =>
    cases hfits
    exact ⟨_, rfl, .cancelled⟩
  | sweepBegin =>
    cases hfits
    exact ⟨_, rfl, .sweepNext (fun k hk => hnamed.lt_of_registered hk) nofun⟩
  | sweepDone =>
    cases hfits with
    | sweepNext hleft hlost => exact ⟨_, rfl, .sweepRemove hlost⟩
  | sweepCheck hslot =>
    cases hfits with
    | sweepNext hleft hlost =>
      obtain ⟨hfirst, hrest⟩ := List.forall_mem_cons.mp hleft
      exact ⟨_, rfl, .sweepWait hfirst hrest hlost⟩
  | sweepLost hreply =>
    cases hfits with
    | sweepWait hslot hleft hlost =>
      exact ⟨_, rfl, .sweepNext hleft (Holder.forall_mem_append_singleton hlost hslot)⟩
  | sweepKept hreply =>
    cases hfits with
    | sweepWait hslot hleft hlost => exact ⟨_, rfl, .sweepNext hleft hlost⟩
  | sweepRemove =>
    cases hfits
    rw [foldl_removeCurrent]
    exact ⟨_, rfl, .swept⟩
  | shutdownBegin =>
    cases hfits
    exact ⟨_, rfl, .shutdownNext fun k hk => hnamed.lt_of_registered hk⟩
  | shutdownDone =>
    cases hfits
    exact ⟨_, rfl, .stopped⟩
  | shutdownCancel hslot =>
    cases hfits with
    | shutdownNext hleft =>
      obtain ⟨hfirst, hrest⟩ := List.forall_mem_cons.mp hleft
      exact ⟨_, rfl, .shutdownWait hfirst hrest⟩
  | shutdownReturn hreply =>
    cases hfits with
    | shutdownWait hslot hleft => exact ⟨_, rfl, .shutdownNext hleft⟩
  | statusMissing hlookup =>
    cases hfits
    exact ⟨_, rfl, .status⟩
  | statusFound hlookup hslot =>
    cases hfits
    exact ⟨_, rfl, .statusWait (named_of_lookup? hnamed hlookup)⟩
  | statusReturn hreply =>
    cases hfits
    exact ⟨_, rfl, .status⟩

theorem forall₂_set {α β : Type} {R : α → β → Prop} {as : List α} {bs : List β} {k : Nat} {a : α}
    {b : β} (h : List.Forall₂ R as bs) (hk : as[k]? = some a) (hab : R a b) :
    List.Forall₂ R as (bs.set k b) := by
  induction h generalizing k with
  | nil => cases hk
  | cons hfirst hrest ih =>
    cases k with
    | zero =>
      cases hk
      exact .cons hab hrest
    | succ k => exact .cons hfirst (ih hk)

/-- The map and all calls are about the names that they were made and begun for. -/
structure Placed (operations : List (Operation Id)) (r : Registry Id) : Prop where
  named : r.Named
  calls : List.Forall₂ (fun operation stage => stage.Fits r.names operation) operations r.calls

namespace Placed

omit [DecidableEq Id] in
theorem start (config : EngineConfig) : Placed [] (start config : Registry Id) :=
  ⟨fun _ hentry => absurd hentry List.not_mem_nil, .nil⟩

variable (hplaced : Placed operations r)
include hplaced

omit [DecidableEq Id] in
theorem length_eq : operations.length = r.calls.length :=
  hplaced.calls.length_eq

omit [DecidableEq Id] in
/-- The operation that a call was begun for. -/
theorem exists_operation (hc : r.calls[c]? = some stage) :
    ∃ operation, operations[c]? = some operation ∧ stage.Fits r.names operation :=
  getElem?_of_forall₂ hplaced.calls hc

theorem step (hstep : r.Step a r') : Placed (operations ++ a.operation?.toList) r' := by
  refine ⟨hplaced.named.step hstep, ?_⟩
  have hcalls : List.Forall₂ (fun operation stage => stage.Fits r.names operation)
      (operations ++ a.operation?.toList) r'.calls := by
    have hsame (heq : r'.calls = r.calls) (hnone : a.operation? = none) :
        List.Forall₂ (fun operation stage => stage.Fits r.names operation)
          (operations ++ a.operation?.toList) r'.calls := by
      rw [heq, hnone]
      exact (List.append_nil operations).symm ▸ hplaced.calls
    cases hstep with
    | begin operation =>
      exact List.rel_append hplaced.calls (.cons (Stage.fits_firstStage operation) .nil)
    | reap hdue hnow => exact List.rel_append hplaced.calls (.cons .sweepBegin .nil)
    | call hc hcall =>
      obtain ⟨operation, hop, hfits⟩ := hplaced.exists_operation hc
      obtain ⟨next, hset, hnext⟩ := hcall.fits hplaced.named hfits
      rw [hset]
      exact (List.append_nil operations).symm ▸ forall₂_set hplaced.calls hop hnext
    | abandonLookup hc =>
      obtain ⟨operation, hop, hfits⟩ := hplaced.exists_operation hc
      cases hfits
      exact (List.append_nil operations).symm ▸ forall₂_set hplaced.calls hop .abandoned
    | _ => exact hsame rfl rfl
  rw [hstep.names_eq]
  exact hcalls.imp fun _ _ hfits => hfits.append _

end Placed

end

end PagedQuery.Task.Registry
