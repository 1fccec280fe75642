import PagedQuery.Proofs.Registry.Step
import PagedQuery.Proofs.Task.Calls

/-!
# Runs of a registry

A run is a list of actions. Calls of all kinds go on side by side, the steps
inside holders are among them, and the clock moves only by actions of its own.

* `Registry.run`, `Registry.Passes`: the state after a list of actions, and the steps on the way;
* `Registry.Motion`: what a step does to the holders;
* `Registry.Tidy`: names, slots and calls are in order in every run.
-/

namespace PagedQuery.Task.Registry

variable {Id : Type} [DecidableEq Id]

/-! ## Runs -/

/-- The state after a list of actions, `none` if one is not possible. -/
def run (r : Registry Id) : List (Action Id) → Option (Registry Id)
  | [] => some r
  | a :: as => (r.step a).bind fun r' => r'.run as

/-- The run takes the step from `q` by `a` to `q'`. -/
def Passes (r : Registry Id) (as : List (Action Id)) (q : Registry Id) (a : Action Id)
    (q' : Registry Id) : Prop :=
  ∃ before after, as = before ++ a :: after ∧ r.run before = some q ∧ q.step a = some q'

/-- The run goes through the state `q`. -/
def Visits (r : Registry Id) (as : List (Action Id)) (q : Registry Id) : Prop :=
  ∃ before after, as = before ++ after ∧ r.run before = some q

variable {r r' q q' : Registry Id} {a b : Action Id} {as bs : List (Action Id)}

theorem run_cons_eq_some_iff :
    r.run (a :: as) = some r' ↔ ∃ q, r.step a = some q ∧ q.run as = some r' :=
  Option.bind_eq_some_iff

theorem run_append_eq_some_iff :
    r.run (as ++ bs) = some r' ↔ ∃ q, r.run as = some q ∧ q.run bs = some r' := by
  induction as generalizing r with
  | nil =>
    constructor
    · intro hrun
      exact ⟨r, rfl, hrun⟩
    · rintro ⟨q, hq, hrun⟩
      cases hq
      exact hrun
  | cons a as ih =>
    rw [List.cons_append, run_cons_eq_some_iff]
    constructor
    · rintro ⟨r₁, hstep, hrun⟩
      obtain ⟨q, hfirst, hlast⟩ := ih.mp hrun
      exact ⟨q, run_cons_eq_some_iff.mpr ⟨r₁, hstep, hfirst⟩, hlast⟩
    · rintro ⟨q, hfirst, hlast⟩
      obtain ⟨r₁, hstep, hfirst⟩ := run_cons_eq_some_iff.mp hfirst
      exact ⟨r₁, hstep, ih.mpr ⟨q, hfirst, hlast⟩⟩

theorem run_concat_eq_some_iff :
    r.run (as ++ [a]) = some r' ↔ ∃ q, r.run as = some q ∧ q.step a = some r' := by
  rw [run_append_eq_some_iff]
  refine exists_congr fun q => and_congr_right fun _ => ?_
  rw [run_cons_eq_some_iff]
  constructor
  · rintro ⟨_, hstep, hrun⟩
    cases hrun
    exact hstep
  · intro hstep
    exact ⟨r', hstep, rfl⟩

/-- What every step preserves holds after every run. -/
theorem run_invariant {P : Registry Id → Prop}
    (hstep : ∀ {r a r'}, P r → r.Step a r' → P r') (hinit : P r) (hrun : r.run as = some r') :
    P r' := by
  induction as generalizing r with
  | nil =>
    cases hrun
    exact hinit
  | cons a as ih =>
    obtain ⟨q, hfirst, hrest⟩ := run_cons_eq_some_iff.mp hrun
    exact ih (hstep hinit (step_of_eq_some hfirst)) hrest

/-- What holds at first, and after a step if it holds before, holds after every run; it may speak
of the run so far. -/
theorem run_induction {P : List (Action Id) → Registry Id → Prop} (hinit : P [] r)
    (hstep : ∀ {as q a q'}, r.run as = some q → q.step a = some q' → P as q → P (as ++ [a]) q')
    (hrun : r.run as = some r') : P as r' := by
  have hfrom : ∀ (bs before : List (Action Id)) (q : Registry Id), r.run before = some q →
      P before q → q.run bs = some r' → P (before ++ bs) r' := by
    intro bs
    induction bs with
    | nil =>
      intro before q _ hq hend
      cases hend
      rwa [List.append_nil]
    | cons b bs ih =>
      intro before q hbefore hq hend
      obtain ⟨q', hb, hend⟩ := run_cons_eq_some_iff.mp hend
      have hnext := ih (before ++ [b]) q' (run_concat_eq_some_iff.mpr ⟨q, hbefore, hb⟩)
        (hstep hbefore hb hq) hend
      rwa [List.append_assoc] at hnext
  exact hfrom as [] r rfl hinit hrun

/-! ## Steps on the way -/

theorem passes_concat_iff :
    r.Passes (as ++ [b]) q a q' ↔
      r.Passes as q a q' ∨ a = b ∧ r.run as = some q ∧ q.step a = some q' := by
  constructor
  · rintro ⟨before, after, heq, hbefore, hstep⟩
    rcases List.eq_nil_or_concat after with rfl | ⟨after, last, rfl⟩
    · obtain ⟨rfl, hlast⟩ := List.append_inj' heq rfl
      cases hlast
      exact .inr ⟨rfl, hbefore, hstep⟩
    · rw [List.concat_eq_append, ← List.cons_append, ← List.append_assoc] at heq
      obtain ⟨rfl, -⟩ := List.append_inj' heq rfl
      exact .inl ⟨before, after, rfl, hbefore, hstep⟩
  · rintro (⟨before, after, rfl, hbefore, hstep⟩ | ⟨rfl, hrun, hstep⟩)
    · exact ⟨before, after ++ [b], by simp, hbefore, hstep⟩
    · exact ⟨as, [], rfl, hrun, hstep⟩

theorem passes_cons_iff :
    r.Passes (b :: as) q a q' ↔
      (a = b ∧ q = r ∧ r.step a = some q') ∨ ∃ r₁, r.step b = some r₁ ∧ r₁.Passes as q a q' := by
  constructor
  · rintro ⟨before, after, heq, hbefore, hstep⟩
    cases before with
    | nil =>
      cases heq
      cases hbefore
      exact .inl ⟨rfl, rfl, hstep⟩
    | cons first before =>
      cases heq
      obtain ⟨r₁, hfirst, hbefore⟩ := run_cons_eq_some_iff.mp hbefore
      exact .inr ⟨r₁, hfirst, before, after, rfl, hbefore, hstep⟩
  · rintro (⟨rfl, rfl, hstep⟩ | ⟨r₁, hfirst, before, after, rfl, hbefore, hstep⟩)
    · exact ⟨[], as, rfl, rfl, hstep⟩
    · exact ⟨b :: before, after, rfl, run_cons_eq_some_iff.mpr ⟨r₁, hfirst, hbefore⟩, hstep⟩

/-- The run up to a step on the way, and the rest of it. -/
theorem Passes.split (hpass : r.Passes as q a q') (hrun : r.run as = some r') :
    ∃ before after, r.run before = some q ∧ q.step a = some q' ∧ q'.run after = some r' := by
  obtain ⟨before, after, rfl, hbefore, hstep⟩ := hpass
  obtain ⟨_, hq, hrest⟩ := run_append_eq_some_iff.mp hrun
  cases Option.some.inj (hbefore.symm.trans hq)
  obtain ⟨_, hq', hafter⟩ := run_cons_eq_some_iff.mp hrest
  cases Option.some.inj (hstep.symm.trans hq')
  exact ⟨before, after, hbefore, hstep, hafter⟩

theorem visits_last (hrun : r.run as = some q) : r.Visits as q :=
  ⟨as, [], (List.append_nil as).symm, hrun⟩

theorem Visits.append (hvisit : r.Visits as q) (bs : List (Action Id)) : r.Visits (as ++ bs) q := by
  obtain ⟨before, after, rfl, hbefore⟩ := hvisit
  exact ⟨before, after ++ bs, List.append_assoc .., hbefore⟩

/-- The run up to a state on the way, and the rest of it. -/
theorem Visits.split (hvisit : r.Visits as q) (hrun : r.run as = some r') :
    ∃ before after, r.run before = some q ∧ q.run after = some r' := by
  obtain ⟨before, after, rfl, hbefore⟩ := hvisit
  obtain ⟨_, hq, hafter⟩ := run_append_eq_some_iff.mp hrun
  cases Option.some.inj (hbefore.symm.trans hq)
  exact ⟨before, after, hbefore, hafter⟩

/-! ## Parts of steps -/

section

omit [DecidableEq Id]

variable {slot k c : Nat} {h h' : Holder} {stage : Stage Id}

theorem getElem?_goTo_self (hc : r.calls[c]? = some stage) (next : Stage Id) :
    (r.goTo c next).calls[c]? = some next :=
  Holder.getElem?_set_self_of_some hc

theorem holder?_setHolder (hslot : r.holder? slot = some h) (h' : Holder) :
    (r.setHolder slot h').holder? slot = some h' := by
  obtain ⟨s, hs, -⟩ := holder?_eq_some_iff.mp hslot
  simp [holder?, setHolder, hs]

theorem holder?_setHolder_of_ne (hne : slot ≠ k) (h' : Holder) :
    (r.setHolder slot h').holder? k = r.holder? k := by
  simp [holder?, setHolder, hne]

theorem lt_of_holder? (hslot : r.holder? slot = some h) : slot < r.slots.length := by
  obtain ⟨s, hs, -⟩ := holder?_eq_some_iff.mp hslot
  exact (List.getElem?_eq_some_iff.mp hs).1

theorem mem_registered_iff : slot ∈ r.registered ↔ ∃ id, (id, slot) ∈ r.entries := by
  simp [registered]

theorem foldl_removeCurrent (r : Registry Id) (lost : List Nat) :
    lost.foldl removeCurrent r =
      { r with entries := r.entries.filter fun entry => entry.2 ∉ lost } := by
  induction lost generalizing r with
  | nil =>
    have hall : r.entries.filter (fun entry => entry.2 ∉ ([] : List Nat)) = r.entries := by simp
    rw [List.foldl_nil, hall]
  | cons slot lost ih =>
    rw [List.foldl_cons, ih, removeCurrent, List.filter_filter]
    simp [Bool.and_comm]

end

/-! ## Holders -/

/-- Whether the action makes a holder. -/
def Action.makesHolder : Action Id → Bool
  | .put .. => true
  | .own .. => true
  | _ => false

/-- What a step does to the holders: it makes one, one of them takes a step at the time of the
clock, or all stay as they are. A holder goes on by itself only where the action says so. -/
inductive Motion (r : Registry Id) (a : Action Id) (r' : Registry Id) : Prop where
  | rest (hholders : ∀ k, r'.holder? k = r.holder? k)
  | make {factory : Factory} {idleTimeout : Nat} (hmakes : a.makesHolder = true)
      (hnew : r'.holder? r.slots.length = some (Holder.new factory idleTimeout r.clock))
      (hothers : ∀ k, k ≠ r.slots.length → r'.holder? k = r.holder? k)
  | inner {slot : Nat} {h h' : Holder} {b : Task.Action} (hslot : r.holder? slot = some h)
      (hinner : h.Step r.clock b h') (hcause : isInnerStep b = true → a = .inner slot b)
      (hslot' : r'.holder? slot = some h') (hothers : ∀ k, k ≠ slot → r'.holder? k = r.holder? k)

section

omit [DecidableEq Id]

variable {slot k c : Nat} {h h' : Holder}

theorem Motion.setHolder {b : Task.Action} (hslot : r.holder? slot = some h)
    (hinner : h.step r.clock b = some h') (hcause : isInnerStep b = true → a = .inner slot b)
    (hslots : r'.slots = (r.setHolder slot h').slots) : r.Motion a r' := by
  have hholders (k : Nat) : r'.holder? k = (r.setHolder slot h').holder? k := by
    rw [holder?, hslots, holder?]
  refine .inner hslot (Holder.step_of_eq_some hinner) hcause ?_ ?_
  · rw [hholders, holder?_setHolder hslot]
  · intro k hne
    rw [hholders, holder?_setHolder_of_ne hne.symm]

theorem Motion.beginOn {operation : Task.Operation} (hslot : r.holder? slot = some h)
    (hslots : r'.slots = (r.beginOn slot h operation).slots) : r.Motion a r' :=
  .setHolder (b := .begin operation) hslot rfl nofun hslots

theorem Motion.addSlot {id : Id} {factory : Factory} {idleTimeout : Nat} {owned : Bool}
    (hmakes : a.makesHolder = true)
    (hslots : r'.slots = (r.addSlot id factory idleTimeout owned).slots) : r.Motion a r' := by
  have hnew : r'.holder? r.slots.length = some (Holder.new factory idleTimeout r.clock) := by
    rw [holder?, hslots, Registry.addSlot, List.getElem?_append_right (Nat.le_refl _),
      Nat.sub_self]
    rfl
  refine .make hmakes hnew ?_
  intro k hne
  rw [holder?, hslots, Registry.addSlot, List.getElem?_append]
  split
  · rfl
  · have hge : r.slots.length ≤ k := Nat.le_of_not_lt ‹_›
    have hnone : r.slots[k]? = none := List.getElem?_eq_none hge
    rw [List.getElem?_singleton, if_neg (by omega), holder?, hnone]

theorem Motion.same (hslots : r'.slots = r.slots) : r.Motion a r' :=
  .rest fun k => by rw [holder?, hslots, holder?]

end

theorem CallStep.motion {c : Nat} {stage : Stage Id} (hcall : r.CallStep c stage r') :
    r.Motion a r' := by
  cases hcall with
  | fetchFound hlookup hslot | cancelFound hlookup hslot | sweepCheck hslot
  | shutdownCancel hslot | statusFound hlookup hslot => exact .beginOn hslot rfl
  | sweepRemove =>
    rw [foldl_removeCurrent]
    exact .same rfl
  | _ => exact .same rfl

theorem Step.motion (hstep : r.Step a r') : r.Motion a r' := by
  cases hstep with
  | put hfree => exact .addSlot rfl rfl
  | own id factory idleTimeout => exact .addSlot rfl rfl
  | disown slot =>
    refine .rest fun k => ?_
    simp only [holder?, List.getElem?_modify]
    cases r.slots[k]? with
    | none => rfl
    | some s => by_cases heq : slot = k <;> simp [heq]
  | inner hs hallowed hinner =>
    exact .setHolder (holder?_eq_some_iff.mpr ⟨_, hs, rfl⟩) hinner (fun _ => rfl) rfl
  | ask hs howned => exact .beginOn (holder?_eq_some_iff.mpr ⟨_, hs, rfl⟩) rfl
  | drop hs hunreachable => exact .beginOn (holder?_eq_some_iff.mpr ⟨_, hs, rfl⟩) rfl
  | abandonWait hc hslot hinner => exact .setHolder hslot hinner nofun rfl
  | call hc hcall => exact hcall.motion
  | _ => exact .same rfl

section

omit [DecidableEq Id]

variable {slot k : Nat} {h h' : Holder}

/-- What has become of a holder. -/
theorem Motion.after (hmotion : r.Motion a r') (hk : r.holder? k = some h) :
    ∃ h', r'.holder? k = some h' ∧
      (h' = h ∨ ∃ b, h.Step r.clock b h' ∧ (isInnerStep b = true → a = .inner k b)) := by
  cases hmotion with
  | rest hholders => exact ⟨h, (hholders k).trans hk, .inl rfl⟩
  | make hmakes hnew hothers =>
    have hne : k ≠ r.slots.length := Nat.ne_of_lt (lt_of_holder? hk)
    exact ⟨h, (hothers k hne).trans hk, .inl rfl⟩
  | @inner slot h₁ h₁' b hslot hinner hcause hslot' hothers =>
    by_cases heq : k = slot
    · subst heq
      cases Option.some.inj (hslot.symm.trans hk)
      exact ⟨h₁', hslot', .inr ⟨b, hinner, hcause⟩⟩
    · exact ⟨h, (hothers k heq).trans hk, .inl rfl⟩

/-- What a holder was before. -/
theorem Motion.before (hmotion : r.Motion a r') (hk : r'.holder? k = some h') :
    (a.makesHolder = true ∧ k = r.slots.length ∧
        ∃ factory idleTimeout, h' = Holder.new factory idleTimeout r.clock) ∨
      ∃ h, r.holder? k = some h ∧
        (h' = h ∨ ∃ b, h.Step r.clock b h' ∧ (isInnerStep b = true → a = .inner k b)) := by
  cases hmotion with
  | rest hholders => exact .inr ⟨h', (hholders k).symm.trans hk, .inl rfl⟩
  | @make factory idleTimeout hmakes hnew hothers =>
    by_cases heq : k = r.slots.length
    · subst heq
      exact .inl ⟨hmakes, rfl, factory, idleTimeout, Option.some.inj (hk.symm.trans hnew)⟩
    · exact .inr ⟨h', (hothers k heq).symm.trans hk, .inl rfl⟩
  | @inner slot h₁ h₁' b hslot hinner hcause hslot' hothers =>
    by_cases heq : k = slot
    · subst heq
      cases Option.some.inj (hk.symm.trans hslot')
      exact .inr ⟨h₁, hslot, .inr ⟨b, hinner, hcause⟩⟩
    · exact .inr ⟨h', (hothers k heq).symm.trans hk, .inl rfl⟩

/-- Stages and results of every holder are in order. -/
def Honest (r : Registry Id) : Prop :=
  ∀ (k : Nat) (h : Holder), r.holder? k = some h → h.Honest

theorem Motion.honest (hmotion : r.Motion a r') (hhonest : r.Honest) : r'.Honest := by
  intro k h' hk
  rcases hmotion.before hk with ⟨-, -, factory, idleTimeout, rfl⟩ | ⟨h, hold, rfl | ⟨b, hstep, -⟩⟩
  · exact Holder.honest_new factory idleTimeout r.clock
  · exact hhonest k h' hold
  · exact (hhonest k h hold).step hstep

/-- The holder of the slot is closed. -/
def IsClosed (r : Registry Id) (k : Nat) : Prop :=
  ∃ h, r.holder? k = some h ∧ h.lifecycle.state = .closed

theorem Motion.isClosed (hmotion : r.Motion a r') (hclosed : r.IsClosed k) : r'.IsClosed k := by
  obtain ⟨h, hk, hstate⟩ := hclosed
  obtain ⟨h', hk', rfl | ⟨b, hstep, -⟩⟩ := hmotion.after hk
  · exact ⟨h', hk', hstate⟩
  · exact ⟨h', hk', hstep.stays_closed hstate⟩

theorem innerReply?_eq_some_iff {reply : Reply} {i : Nat} :
    r.innerReply? k i = some reply ↔
      ∃ h, r.holder? k = some h ∧ h.calls[i]? = some (.returned reply) := by
  refine Option.bind_eq_some_iff.trans (exists_congr fun h => and_congr_right fun _ => ?_)
  exact Holder.reply?_eq_some_iff

/-- What a call on a holder has returned, it has returned for good. -/
theorem Motion.innerReply? (hmotion : r.Motion a r') {reply : Reply} {i : Nat}
    (hreply : r.innerReply? k i = some reply) : r'.innerReply? k i = some reply := by
  obtain ⟨h, hk, hi⟩ := innerReply?_eq_some_iff.mp hreply
  obtain ⟨h', hk', rfl | ⟨b, hstep, -⟩⟩ := hmotion.after hk
  · exact innerReply?_eq_some_iff.mpr ⟨h', hk', hi⟩
  · exact innerReply?_eq_some_iff.mpr ⟨h', hk', hstep.getElem?_calls_returned hi⟩

/-- A reply that is given only after a close. -/
theorem Honest.isClosed_of_reply (hhonest : r.Honest) {reply : Reply} {i : Nat}
    (hreply : r.innerReply? k i = some reply)
    (hfollows : (Task.Stage.returned reply).followsClose = true) : r.IsClosed k := by
  obtain ⟨h, hk, hi⟩ := innerReply?_eq_some_iff.mp hreply
  exact ⟨h, hk, (hhonest k h hk).closed _ (List.mem_of_getElem? hi) hfollows⟩

end

omit [DecidableEq Id] in
theorem honest_start (config : EngineConfig) : (start config : Registry Id).Honest := by
  intro k h hk
  cases hk

theorem run_honest {config : EngineConfig} (hrun : (start config).run as = some r) : r.Honest :=
  run_invariant (fun hhonest hstep => hstep.motion.honest hhonest) (honest_start config) hrun

/-! ## The map -/

/-- Names and holders are in the map once, and its holders have the idle timeout of the
registry. -/
structure Tidy (r : Registry Id) : Prop where
  nodup : r.registered.Nodup
  holders : ∀ entry ∈ r.entries, ∃ h, r.holder? entry.2 = some h ∧
    h.idleTimeout = r.config.idleTimeout

/-- Whether a call at the stage takes the entry out of the map in its next step. -/
def Removes (r : Registry Id) (entry : Id × Nat) : Stage Id → Prop
  | .fetchRemove slot _ => entry.2 = slot
  | .cancelRemove id => r.lookup? id = some entry.2
  | .sweepRemove lost => entry.2 ∈ lost
  | .shutdownBegin => True
  | _ => False

theorem CallStep.mem_entries_iff {c : Nat} {stage : Stage Id} (hcall : r.CallStep c stage r')
    (entry : Id × Nat) : entry ∈ r'.entries ↔ entry ∈ r.entries ∧ ¬ r.Removes entry stage := by
  have hsame : entry ∈ r.entries ↔ entry ∈ r.entries ∧ ¬ False := by simp
  cases hcall with
  | fetchRemove => simp [Removes, removeCurrent, goTo]
  | cancelMissing hlookup => simp [Removes, hlookup, goTo]
  | @cancelFound id slot h hlookup =>
    have hremoves : r.Removes entry (.cancelRemove id) ↔ entry.2 = slot := by
      rw [Removes, hlookup, Option.some_inj, eq_comm]
    rw [hremoves]
    simp [removeCurrent, goTo, beginOn, setHolder]
  | sweepRemove =>
    rw [foldl_removeCurrent]
    simp [Removes, goTo]
  | shutdownBegin => simp [Removes, goTo]
  | _ => exact hsame

/-- What is in the map after a step: what was there and is not removed, or what the step puts. -/
theorem Step.mem_entries_iff (hstep : r.Step a r') (entry : Id × Nat) :
    entry ∈ r'.entries ↔
      (entry ∈ r.entries ∧
        ¬ ∃ c stage, a = .call c ∧ r.calls[c]? = some stage ∧ r.Removes entry stage) ∨
      ∃ id factory, a = .put id factory ∧ entry = (id, r.slots.length) := by
  have hsame (hcall : ∀ c, a ≠ .call c) (hput : ∀ id factory, a ≠ .put id factory) :
      entry ∈ r.entries ↔
        (entry ∈ r.entries ∧
          ¬ ∃ c stage, a = .call c ∧ r.calls[c]? = some stage ∧ r.Removes entry stage) ∨
        ∃ id factory, a = .put id factory ∧ entry = (id, r.slots.length) := by
    simp [hcall, hput]
  cases hstep with
  | put hfree => simp
  | call hc hcall =>
    rw [hcall.mem_entries_iff]
    simp [hc]
  | _ =>
    apply hsame
    · intro c heq
      cases heq
    · intro id factory heq
      cases heq

/-- A holder that is out of the map stays out of it. -/
theorem Step.not_mem_registered (hstep : r.Step a r') {slot : Nat} (hlt : slot < r.slots.length)
    (hnot : slot ∉ r.registered) : slot ∉ r'.registered := by
  intro hmem
  obtain ⟨id, hentry⟩ := mem_registered_iff.mp hmem
  rcases (hstep.mem_entries_iff (id, slot)).mp hentry with ⟨hold, -⟩ | ⟨id', factory, -, heq⟩
  · exact hnot (mem_registered_iff.mpr ⟨id, hold⟩)
  · cases heq
    exact absurd hlt (Nat.lt_irrefl _)

theorem CallStep.entries_sublist {c : Nat} {stage : Stage Id} (hcall : r.CallStep c stage r') :
    r'.entries.Sublist r.entries := by
  cases hcall with
  | fetchRemove | cancelFound hlookup => exact List.filter_sublist
  | sweepRemove =>
    rw [foldl_removeCurrent]
    exact List.filter_sublist
  | shutdownBegin => exact List.nil_sublist _
  | _ => exact List.Sublist.refl _

theorem CallStep.config_eq {c : Nat} {stage : Stage Id} (hcall : r.CallStep c stage r') :
    r'.config = r.config := by
  cases hcall with
  | sweepRemove => rw [foldl_removeCurrent]; rfl
  | _ => rfl

theorem Step.config_eq (hstep : r.Step a r') : r'.config = r.config := by
  cases hstep with
  | call hc hcall => exact hcall.config_eq
  | _ => rfl

theorem run_config {config : EngineConfig} (hrun : (start config).run as = some r) :
    r.config = config :=
  run_invariant (P := fun r => r.config = config)
    (fun hconfig hstep => hstep.config_eq.trans hconfig) rfl hrun

theorem mem_entries_of_lookup? {id : Id} {slot : Nat} (hlookup : r.lookup? id = some slot) :
    (id, slot) ∈ r.entries := by
  obtain ⟨before, after, hentries, -⟩ := List.lookup_eq_some_iff.mp hlookup
  rw [hentries]
  exact List.mem_append_right before List.mem_cons_self

omit [DecidableEq Id] in
/-- A holder is in the map under one name. -/
theorem Tidy.eq_of_mem (htidy : r.Tidy) {i j : Id} {slot : Nat} (hi : (i, slot) ∈ r.entries)
    (hj : (j, slot) ∈ r.entries) : i = j := by
  obtain ⟨m, hm⟩ := List.getElem?_of_mem hi
  obtain ⟨n, hn⟩ := List.getElem?_of_mem hj
  have hm' : r.registered[m]? = some slot := by rw [registered, List.getElem?_map, hm]; rfl
  have hn' : r.registered[n]? = some slot := by rw [registered, List.getElem?_map, hn]; rfl
  have hsame : m = n := (List.getElem?_inj (List.getElem?_eq_some_iff.mp hm').1 htidy.nodup).mp
    (hm'.trans hn'.symm)
  subst hsame
  exact congrArg Prod.fst (Option.some.inj (hm.symm.trans hn))

omit [DecidableEq Id] in
theorem Tidy.exists_holder (htidy : r.Tidy) {slot : Nat} (hslot : slot ∈ r.registered) :
    ∃ h, r.holder? slot = some h := by
  obtain ⟨id, hentry⟩ := mem_registered_iff.mp hslot
  obtain ⟨h, hh, -⟩ := htidy.holders _ hentry
  exact ⟨h, hh⟩

theorem Tidy.step (htidy : r.Tidy) (hstep : r.Step a r') : r'.Tidy := by
  have hold {entry : Id × Nat} (hentry : entry ∈ r.entries) :
      ∃ h, r'.holder? entry.2 = some h ∧ h.idleTimeout = r'.config.idleTimeout := by
    obtain ⟨h, hslot, hidle⟩ := htidy.holders entry hentry
    rw [hstep.config_eq]
    obtain ⟨h', hslot', rfl | ⟨b, hinner, -⟩⟩ := hstep.motion.after hslot
    · exact ⟨h', hslot', hidle⟩
    · exact ⟨h', hslot', hinner.idleTimeout_eq.trans hidle⟩
  have hless (hsublist : r'.entries.Sublist r.entries) : r'.Tidy :=
    ⟨htidy.nodup.sublist (hsublist.map Prod.snd), fun entry hentry => hold (hsublist.mem hentry)⟩
  cases hstep with
  | @put id factory hfree =>
    refine ⟨?_, ?_⟩
    · show ((r.entries ++ [(id, r.slots.length)]).map Prod.snd).Nodup
      rw [List.map_append, List.nodup_append]
      refine ⟨htidy.nodup, List.pairwise_singleton _ _, ?_⟩
      rintro slot hmem last hlast rfl
      cases List.mem_singleton.mp hlast
      obtain ⟨id', hentry⟩ := mem_registered_iff.mp hmem
      obtain ⟨h, hslot, -⟩ := htidy.holders _ hentry
      exact absurd (lt_of_holder? hslot) (Nat.lt_irrefl _)
    · refine Holder.forall_mem_append_singleton (fun entry hentry => hold hentry) ?_
      refine ⟨Holder.new factory r.config.idleTimeout r.clock, ?_, rfl⟩
      simp [holder?, addSlot]
  | call hc hcall => exact hless hcall.entries_sublist
  | _ => exact hless (List.Sublist.refl _)

theorem run_tidy {config : EngineConfig} (hrun : (start config).run as = some r) : r.Tidy := by
  refine run_invariant Tidy.step ?_ hrun
  exact ⟨List.nodup_nil, fun entry hentry => nomatch hentry⟩

/-! ## Calls of the registry -/

/-- The call of the registry that takes a step of its own by the action. -/
def Action.mover? : Action Id → Option Nat
  | .call c => some c
  | .abandon c => some c
  | _ => none

theorem CallStep.calls_eq {c : Nat} {stage : Stage Id} (hcall : r.CallStep c stage r') :
    ∃ next, r'.calls = r.calls.set c next := by
  cases hcall with
  | sweepRemove =>
    rw [foldl_removeCurrent]
    exact ⟨_, rfl⟩
  | _ => exact ⟨_, rfl⟩

/-- A call that does not move stays where it is. -/
theorem Step.getElem?_calls_of_ne (hstep : r.Step a r') {c : Nat} {stage : Stage Id}
    (hmover : a.mover? ≠ some c) (hc : r.calls[c]? = some stage) : r'.calls[c]? = some stage := by
  have hset {c' : Nat} {next : Stage Id} (hne : some c' ≠ some c) :
      (r.calls.set c' next)[c]? = some stage := by
    rw [List.getElem?_set_ne ?_, hc]
    rintro rfl
    exact hne rfl
  have happend {stage' : Stage Id} : (r.calls ++ [stage'])[c]? = some stage := by
    rw [List.getElem?_append_left (List.getElem?_eq_some_iff.mp hc).1, hc]
  cases hstep with
  | begin operation => exact happend
  | reap hdue hnow => exact happend
  | call hc' hcall =>
    obtain ⟨next, hcalls⟩ := hcall.calls_eq
    rw [hcalls]
    exact hset hmover
  | abandonLookup hc' => exact hset hmover
  | _ => exact hc

/-- A call that did not move was where it is, or is new. -/
theorem Step.getElem?_calls_before (hstep : r.Step a r') {c : Nat} {stage : Stage Id}
    (hmover : a.mover? ≠ some c) (hc : r'.calls[c]? = some stage) :
    r.calls[c]? = some stage ∨ ∃ operation, stage = firstStage operation := by
  have hset {c' : Nat} {next : Stage Id} (hne : some c' ≠ some c)
      (hc : (r.calls.set c' next)[c]? = some stage) : r.calls[c]? = some stage := by
    rw [List.getElem?_set_ne ?_] at hc
    · exact hc
    · rintro rfl
      exact hne rfl
  have happend (operation : Operation Id)
      (hc : (r.calls ++ [firstStage operation])[c]? = some stage) :
      r.calls[c]? = some stage ∨ ∃ operation, stage = firstStage operation := by
    rcases Holder.getElem?_of_append_singleton hc with hc | ⟨-, rfl⟩
    · exact .inl hc
    · exact .inr ⟨operation, rfl⟩
  cases hstep with
  | begin operation => exact happend operation hc
  | reap hdue hnow => exact happend .sweep hc
  | call hc' hcall =>
    obtain ⟨next, hcalls⟩ := hcall.calls_eq
    rw [hcalls] at hc
    exact .inl (hset hmover hc)
  | abandonLookup hc' => exact .inl (hset hmover hc)
  | _ => exact .inl hc

/-! ## What calls are about to remove -/

/-- A fetch that is about to remove its task has a result that ends the task, and the holder is
closed; and so are all that a sweep has found lost. -/
def Justifies (r : Registry Id) : Stage Id → Prop
  | .fetchRemove slot result => isFinal result = true ∧ r.IsClosed slot
  | .sweepNext _ lost => ∀ slot ∈ lost, r.IsClosed slot
  | .sweepWait _ _ _ lost => ∀ slot ∈ lost, r.IsClosed slot
  | .sweepRemove lost => ∀ slot ∈ lost, r.IsClosed slot
  | _ => True

omit [DecidableEq Id] in
theorem Motion.justifies (hmotion : r.Motion a r') {stage : Stage Id} (hstage : r.Justifies stage) :
    r'.Justifies stage := by
  cases stage with
  | fetchRemove slot result => exact ⟨hstage.1, hmotion.isClosed hstage.2⟩
  | sweepNext left lost | sweepWait slot k left lost | sweepRemove lost =>
    exact fun slot hslot => hmotion.isClosed (hstage slot hslot)
  | _ => trivial

theorem CallStep.justifies (hhonest : r.Honest) {c : Nat} {stage : Stage Id}
    (hcall : r.CallStep c stage r') (hstage : r.Justifies stage) :
    ∃ next, r'.calls = r.calls.set c next ∧ r.Justifies next := by
  cases hcall with
  | fetchFinal hreply hfinal =>
    exact ⟨_, rfl, hfinal, hhonest.isClosed_of_reply hreply hfinal⟩
  | sweepBegin =>
    refine ⟨_, rfl, ?_⟩
    intro slot hmem
    cases hmem
  | sweepLost hreply =>
    have hlost := hhonest.isClosed_of_reply hreply rfl
    exact ⟨_, rfl, Holder.forall_mem_append_singleton hstage hlost⟩
  | sweepDone | sweepCheck | sweepKept => exact ⟨_, rfl, hstage⟩
  | sweepRemove =>
    rw [foldl_removeCurrent]
    exact ⟨_, rfl, trivial⟩
  | _ => exact ⟨_, rfl, trivial⟩

theorem Step.justifies (hhonest : r.Honest) (hjustified : ∀ stage ∈ r.calls, r.Justifies stage)
    (hstep : r.Step a r') : ∀ stage ∈ r'.calls, r'.Justifies stage := by
  have hcalls : ∀ stage ∈ r'.calls, r.Justifies stage := by
    cases hstep with
    | begin operation =>
      refine Holder.forall_mem_append_singleton hjustified ?_
      cases operation <;> trivial
    | reap hdue hnow => exact Holder.forall_mem_append_singleton hjustified trivial
    | call hc hcall =>
      obtain ⟨next, hset, hnext⟩ :=
        hcall.justifies hhonest (hjustified _ (List.mem_of_getElem? hc))
      rw [hset]
      exact Holder.forall_mem_set hjustified hnext
    | abandonLookup hc => exact Holder.forall_mem_set hjustified trivial
    | _ => exact hjustified
  intro stage hmem
  exact hstep.motion.justifies (hcalls stage hmem)

/-- Whatever calls are about to remove is closed, in every run. -/
theorem run_justifies {config : EngineConfig} (hrun : (start config).run as = some r) :
    ∀ stage ∈ r.calls, r.Justifies stage := by
  have hboth : r.Honest ∧ ∀ stage ∈ r.calls, r.Justifies stage := by
    refine run_invariant (P := fun r => r.Honest ∧ ∀ stage ∈ r.calls, r.Justifies stage) ?_
      ⟨?_, ?_⟩ hrun
    · rintro r a r' ⟨hhonest, hjustified⟩ hstep
      exact ⟨hstep.motion.honest hhonest, hstep.justifies hhonest hjustified⟩
    · exact honest_start config
    · intro stage hmem
      cases hmem
  exact hboth.2

end PagedQuery.Task.Registry
