import PagedQuery.Task.Registry

/-!
# Steps of a registry

Every action of a registry is one of the steps listed here, each with what
makes it possible and the state it leads to.

* `Registry.beginOn`: the start of a call on a holder;
* `Registry.CallStep`, `Registry.Step`: the steps of a call and of a registry;
* `Registry.step_of_eq_some`, `Registry.Step.eq_some`: actions are steps.
-/

namespace PagedQuery.Task.Registry

variable {Id : Type} {r r' : Registry Id}

/-! ## Calls on holders -/

theorem holder?_eq_some_iff {slot : Nat} {h : Holder} :
    r.holder? slot = some h ↔ ∃ s, r.slots[slot]? = some s ∧ s.holder = h :=
  Option.map_eq_some_iff

/-- A call begins on the holder of a slot. -/
def beginOn (r : Registry Id) (slot : Nat) (h : Holder) (operation : Task.Operation) :
    Registry Id :=
  r.setHolder slot { h with calls := h.calls ++ [Holder.firstStage operation] }

theorem beginInner?_eq_some_iff {slot k : Nat} {operation : Task.Operation} :
    r.beginInner? slot operation = some (k, r') ↔
      ∃ h, r.holder? slot = some h ∧ h.calls.length = k ∧ r.beginOn slot h operation = r' := by
  unfold beginInner?
  cases hslot : r.holder? slot with
  | none =>
    constructor
    · intro heq
      cases (heq : none = _)
    · rintro ⟨h, heq, -⟩
      cases heq
  | some h =>
    constructor
    · intro heq
      have hpair : (h.calls.length, r.beginOn slot h operation) = (k, r') := Option.some.inj heq
      obtain ⟨rfl, rfl⟩ := Prod.mk.inj hpair
      exact ⟨h, rfl, rfl, rfl⟩
    · rintro ⟨_, heq, rfl, rfl⟩
      cases heq
      rfl

theorem map_beginInner?_eq_some_iff {slot : Nat} {operation : Task.Operation} :
    (r.beginInner? slot operation).map Prod.snd = some r' ↔
      ∃ h, r.holder? slot = some h ∧ r.beginOn slot h operation = r' := by
  rw [Option.map_eq_some_iff]
  constructor
  · rintro ⟨⟨k, _⟩, hbegin, rfl⟩
    obtain ⟨h, hslot, -, rfl⟩ := beginInner?_eq_some_iff.mp hbegin
    exact ⟨h, hslot, rfl⟩
  · rintro ⟨h, hslot, rfl⟩
    exact ⟨(_, _), beginInner?_eq_some_iff.mpr ⟨h, hslot, rfl, rfl⟩, rfl⟩

/-! ## Calls -/

variable [DecidableEq Id]

variable (r) in
/-- The steps of the call with number `c`. -/
inductive CallStep (c : Nat) : Stage Id → Registry Id → Prop where
  -- fetches
  | fetchMissing {id : Id} {timeout : Nat} (hlookup : r.lookup? id = none) :
      CallStep c (.fetchLookup id timeout) (r.goTo c (.fetched (.error .notFound)))
  | fetchFound {id : Id} {timeout slot : Nat} {h : Holder} (hlookup : r.lookup? id = some slot)
      (hslot : r.holder? slot = some h) :
      CallStep c (.fetchLookup id timeout)
        ((r.beginOn slot h (.fetch timeout)).goTo c (.fetchWait slot h.calls.length))
  | fetchFinal {slot k : Nat} {result : FetchResult}
      (hreply : r.innerReply? slot k = some (.fetched result)) (hfinal : isFinal result = true) :
      CallStep c (.fetchWait slot k) (r.goTo c (.fetchRemove slot result))
  | fetchReturn {slot k : Nat} {result : FetchResult}
      (hreply : r.innerReply? slot k = some (.fetched result)) (hfinal : isFinal result = false) :
      CallStep c (.fetchWait slot k) (r.goTo c (.fetched result))
  | fetchAbandoned {slot k : Nat} (hreply : r.innerReply? slot k = some .abandoned) :
      CallStep c (.fetchWait slot k) (r.goTo c .abandoned)
  | fetchRemove {slot : Nat} {result : FetchResult} :
      CallStep c (.fetchRemove slot result) ((r.removeCurrent slot).goTo c (.fetched result))
  -- cancels
  | cancelMissing {id : Id} (hlookup : r.lookup? id = none) :
      CallStep c (.cancelRemove id) (r.goTo c .cancelled)
  | cancelFound {id : Id} {slot : Nat} {h : Holder} (hlookup : r.lookup? id = some slot)
      (hslot : r.holder? slot = some h) :
      CallStep c (.cancelRemove id)
        (((r.removeCurrent slot).beginOn slot h .cancel).goTo c
          (.cancelWait slot h.calls.length))
  | cancelReturn {slot k : Nat} {reply : Reply} (hreply : r.innerReply? slot k = some reply) :
      CallStep c (.cancelWait slot k) (r.goTo c .cancelled)
  -- sweeps
  | sweepBegin : CallStep c .sweepBegin (r.goTo c (.sweepNext r.registered []))
  | sweepDone {lost : List Nat} : CallStep c (.sweepNext [] lost) (r.goTo c (.sweepRemove lost))
  | sweepCheck {slot : Nat} {left lost : List Nat} {h : Holder}
      (hslot : r.holder? slot = some h) :
      CallStep c (.sweepNext (slot :: left) lost)
        ((r.beginOn slot h .check).goTo c (.sweepWait slot h.calls.length left lost))
  | sweepLost {slot k : Nat} {left lost : List Nat}
      (hreply : r.innerReply? slot k = some (.checked true)) :
      CallStep c (.sweepWait slot k left lost) (r.goTo c (.sweepNext left (lost ++ [slot])))
  | sweepKept {slot k : Nat} {left lost : List Nat}
      (hreply : r.innerReply? slot k = some (.checked false)) :
      CallStep c (.sweepWait slot k left lost) (r.goTo c (.sweepNext left lost))
  | sweepRemove {lost : List Nat} :
      CallStep c (.sweepRemove lost)
        ((lost.foldl removeCurrent r).goTo c (.swept lost.length))
  -- shutdowns
  | shutdownBegin :
      CallStep c .shutdownBegin
        ({ r with entries := [], reaperDue := none }.goTo c (.shutdownNext r.registered))
  | shutdownDone : CallStep c (.shutdownNext []) (r.goTo c .stopped)
  | shutdownCancel {slot : Nat} {left : List Nat} {h : Holder}
      (hslot : r.holder? slot = some h) :
      CallStep c (.shutdownNext (slot :: left))
        ((r.beginOn slot h .cancel).goTo c (.shutdownWait slot h.calls.length left))
  | shutdownReturn {slot k : Nat} {left : List Nat} {reply : Reply}
      (hreply : r.innerReply? slot k = some reply) :
      CallStep c (.shutdownWait slot k left) (r.goTo c (.shutdownNext left))
  -- status requests
  | statusMissing {id : Id} (hlookup : r.lookup? id = none) :
      CallStep c (.statusLookup id) (r.goTo c (.status none))
  | statusFound {id : Id} {slot : Nat} {h : Holder} (hlookup : r.lookup? id = some slot)
      (hslot : r.holder? slot = some h) :
      CallStep c (.statusLookup id)
        ((r.beginOn slot h .status).goTo c (.statusWait slot h.calls.length))
  | statusReturn {slot k : Nat} {progress : Binary64} {state : TaskState}
      (hreply : r.innerReply? slot k = some (.status progress state)) :
      CallStep c (.statusWait slot k) (r.goTo c (.status (some (progress, state))))

theorem callStep_of_eq_some {c : Nat} {stage : Stage Id} (hstep : r.callStep c stage = some r') :
    r.CallStep c stage r' := by
  cases stage with
  | fetchLookup id timeout =>
    simp only [callStep] at hstep
    split at hstep
    · cases hstep
      exact .fetchMissing ‹_›
    · obtain ⟨⟨k, _⟩, hbegin, hgo⟩ := Option.bind_eq_some_iff.mp hstep
      obtain ⟨h, hslot, rfl, rfl⟩ := beginInner?_eq_some_iff.mp hbegin
      cases hgo
      exact .fetchFound ‹_› hslot
  | fetchWait slot k =>
    obtain ⟨reply, hreply, hgo⟩ := Option.bind_eq_some_iff.mp hstep
    cases reply with
    | fetched result =>
      cases hgo
      split
      · exact .fetchFinal hreply ‹_›
      · exact .fetchReturn hreply (Bool.eq_false_iff.mpr ‹_›)
    | abandoned =>
      cases hgo
      exact .fetchAbandoned hreply
    | cancelled => cases hgo
    | checked lost => cases hgo
    | status progress state => cases hgo
  | fetchRemove slot result =>
    cases hstep
    exact .fetchRemove
  | cancelRemove id =>
    simp only [callStep] at hstep
    split at hstep
    · cases hstep
      exact .cancelMissing ‹_›
    · obtain ⟨⟨k, _⟩, hbegin, hgo⟩ := Option.bind_eq_some_iff.mp hstep
      obtain ⟨h, hslot, rfl, rfl⟩ := beginInner?_eq_some_iff.mp hbegin
      cases hgo
      exact .cancelFound ‹_› hslot
  | cancelWait slot k =>
    obtain ⟨reply, hreply, hgo⟩ := Option.bind_eq_some_iff.mp hstep
    cases hgo
    exact .cancelReturn hreply
  | sweepBegin =>
    cases hstep
    exact .sweepBegin
  | sweepNext left lost =>
    cases left with
    | nil =>
      cases hstep
      exact .sweepDone
    | cons slot left =>
      obtain ⟨⟨k, _⟩, hbegin, hgo⟩ := Option.bind_eq_some_iff.mp hstep
      obtain ⟨h, hslot, rfl, rfl⟩ := beginInner?_eq_some_iff.mp hbegin
      cases hgo
      exact .sweepCheck hslot
  | sweepWait slot k left lost =>
    obtain ⟨reply, hreply, hgo⟩ := Option.bind_eq_some_iff.mp hstep
    cases reply with
    | checked found =>
      cases found with
      | true =>
        cases hgo
        exact .sweepLost hreply
      | false =>
        cases hgo
        exact .sweepKept hreply
    | fetched result => cases hgo
    | abandoned => cases hgo
    | cancelled => cases hgo
    | status progress state => cases hgo
  | sweepRemove lost =>
    cases hstep
    exact .sweepRemove
  | shutdownBegin =>
    cases hstep
    exact .shutdownBegin
  | shutdownNext left =>
    cases left with
    | nil =>
      cases hstep
      exact .shutdownDone
    | cons slot left =>
      obtain ⟨⟨k, _⟩, hbegin, hgo⟩ := Option.bind_eq_some_iff.mp hstep
      obtain ⟨h, hslot, rfl, rfl⟩ := beginInner?_eq_some_iff.mp hbegin
      cases hgo
      exact .shutdownCancel hslot
  | shutdownWait slot k left =>
    obtain ⟨reply, hreply, hgo⟩ := Option.bind_eq_some_iff.mp hstep
    cases hgo
    exact .shutdownReturn hreply
  | statusLookup id =>
    simp only [callStep] at hstep
    split at hstep
    · cases hstep
      exact .statusMissing ‹_›
    · obtain ⟨⟨k, _⟩, hbegin, hgo⟩ := Option.bind_eq_some_iff.mp hstep
      obtain ⟨h, hslot, rfl, rfl⟩ := beginInner?_eq_some_iff.mp hbegin
      cases hgo
      exact .statusFound ‹_› hslot
  | statusWait slot k =>
    obtain ⟨reply, hreply, hgo⟩ := Option.bind_eq_some_iff.mp hstep
    cases reply with
    | status progress state =>
      cases hgo
      exact .statusReturn hreply
    | fetched result => cases hgo
    | abandoned => cases hgo
    | cancelled => cases hgo
    | checked lost => cases hgo
  | fetched result => cases hstep
  | abandoned => cases hstep
  | cancelled => cases hstep
  | swept removed => cases hstep
  | stopped => cases hstep
  | status found => cases hstep

theorem CallStep.eq_some {c : Nat} {stage : Stage Id} (hcall : r.CallStep c stage r') :
    r.callStep c stage = some r' := by
  have hbegin {q : Registry Id} {slot : Nat} {h : Holder} (hslot : q.holder? slot = some h)
      (operation : Task.Operation) :
      q.beginInner? slot operation = some (h.calls.length, q.beginOn slot h operation) :=
    beginInner?_eq_some_iff.mpr ⟨h, hslot, rfl, rfl⟩
  cases hcall with
  | fetchMissing hlookup => simp only [callStep, hlookup]
  | fetchFound hlookup hslot => simp [callStep, hlookup, hbegin hslot]
  | fetchFinal hreply hfinal | fetchReturn hreply hfinal => simp [callStep, hreply, hfinal]
  | fetchAbandoned hreply => simp [callStep, hreply]
  | fetchRemove => rfl
  | cancelMissing hlookup => simp only [callStep, hlookup]
  | @cancelFound _ slot _ hlookup hslot =>
    have hslot' : (r.removeCurrent slot).holder? slot = some _ := hslot
    simp [callStep, hlookup, hbegin hslot']
  | cancelReturn hreply => simp [callStep, hreply]
  | sweepBegin => rfl
  | sweepDone => rfl
  | sweepCheck hslot => simp [callStep, hbegin hslot]
  | sweepLost hreply | sweepKept hreply => simp [callStep, hreply]
  | sweepRemove => rfl
  | shutdownBegin => rfl
  | shutdownDone => rfl
  | shutdownCancel hslot => simp [callStep, hbegin hslot]
  | shutdownReturn hreply => simp [callStep, hreply]
  | statusMissing hlookup => simp only [callStep, hlookup]
  | statusFound hlookup hslot => simp [callStep, hlookup, hbegin hslot]
  | statusReturn hreply => simp [callStep, hreply]

/-! ## All steps -/

variable (r) in
/-- The steps of a registry. -/
inductive Step : Action Id → Registry Id → Prop where
  | tick (ms : Nat) : Step (.tick ms) { r with clock := r.clock + ms }
  -- holders
  | put {id : Id} {factory : Factory} (hfree : r.lookup? id = none) :
      Step (.put id factory)
        { r.addSlot id factory r.config.idleTimeout false with
          entries := r.entries ++ [(id, r.slots.length)] }
  | own (id : Id) (factory : Factory) (idleTimeout : Nat) :
      Step (.own id factory idleTimeout) (r.addSlot id factory idleTimeout true)
  | disown (slot : Nat) :
      Step (.disown slot)
        { r with slots := r.slots.modify slot fun s => { s with owned := false } }
  | inner {slot : Nat} {a : Task.Action} {s : Slot Id} {h' : Holder}
      (hs : r.slots[slot]? = some s) (hallowed : (isInnerStep a || s.owned) = true)
      (hinner : s.holder.step r.clock a = some h') :
      Step (.inner slot a) (r.setHolder slot h')
  -- calls on holders that no call of the registry waits for
  | ask {slot : Nat} {operation : Task.Operation} {s : Slot Id}
      (hs : r.slots[slot]? = some s) (howned : s.owned = true) :
      Step (.ask slot operation) (r.beginOn slot s.holder operation)
  | drop {slot : Nat} {s : Slot Id} (hs : r.slots[slot]? = some s)
      (hunreachable : r.isUnreachable slot = true) :
      Step (.drop slot) (r.beginOn slot s.holder .cancel)
  -- calls
  | begin (operation : Operation Id) :
      Step (.begin operation) { r with calls := r.calls ++ [firstStage operation] }
  | reap {due : Nat} (hdue : r.reaperDue = some due) (hnow : due ≤ r.clock) :
      Step .reap
        { r with
          reaperDue := some ((r.clock / r.config.reaperPeriod + 1) * r.config.reaperPeriod)
          calls := r.calls ++ [.sweepBegin] }
  | call {c : Nat} {stage : Stage Id} {r' : Registry Id} (hc : r.calls[c]? = some stage)
      (hcall : r.CallStep c stage r') : Step (.call c) r'
  | abandonLookup {c timeout : Nat} {id : Id} (hc : r.calls[c]? = some (.fetchLookup id timeout)) :
      Step (.abandon c) (r.goTo c .abandoned)
  | abandonWait {c slot k : Nat} {h h' : Holder} (hc : r.calls[c]? = some (.fetchWait slot k))
      (hslot : r.holder? slot = some h) (hinner : h.step r.clock (.abandon k) = some h') :
      Step (.abandon c) (r.setHolder slot h')

/-- Every action that is possible is one of the steps. -/
theorem step_of_eq_some {a : Action Id} (hstep : r.step a = some r') : r.Step a r' := by
  cases a with
  | tick ms =>
    cases hstep
    exact .tick ms
  | put id factory =>
    simp only [step] at hstep
    split at hstep
    · cases hstep
    · cases hstep
      exact .put ‹_›
  | own id factory idleTimeout =>
    cases hstep
    exact .own id factory idleTimeout
  | disown slot =>
    cases hstep
    exact .disown slot
  | ask slot operation =>
    obtain ⟨s, hs, hask⟩ := Option.bind_eq_some_iff.mp hstep
    split at hask
    · obtain ⟨h, hslot, rfl⟩ := map_beginInner?_eq_some_iff.mp hask
      obtain ⟨s', hs', rfl⟩ := holder?_eq_some_iff.mp hslot
      cases Option.some.inj (hs.symm.trans hs')
      exact .ask hs ‹_›
    · cases hask
  | begin operation =>
    cases hstep
    exact .begin operation
  | call c =>
    obtain ⟨stage, hc, hcall⟩ := Option.bind_eq_some_iff.mp hstep
    exact .call hc (callStep_of_eq_some hcall)
  | abandon c =>
    obtain ⟨stage, hc, habandon⟩ := Option.bind_eq_some_iff.mp hstep
    cases stage with
    | fetchLookup id timeout =>
      cases habandon
      exact .abandonLookup hc
    | fetchWait slot k =>
      obtain ⟨h, hslot, hset⟩ := Option.bind_eq_some_iff.mp habandon
      obtain ⟨h', hinner, heq⟩ := Option.bind_eq_some_iff.mp hset
      cases heq
      exact .abandonWait hc hslot hinner
    | _ => cases habandon
  | inner slot action =>
    obtain ⟨s, hs, hset⟩ := Option.bind_eq_some_iff.mp hstep
    split at hset
    · obtain ⟨h', hinner, heq⟩ := Option.bind_eq_some_iff.mp hset
      cases heq
      exact .inner hs ‹_› hinner
    · cases hset
  | reap =>
    obtain ⟨due, hdue, hreap⟩ := Option.bind_eq_some_iff.mp hstep
    split at hreap
    · cases hreap
      exact .reap hdue ‹_›
    · cases hreap
  | drop slot =>
    simp only [step] at hstep
    split at hstep
    · obtain ⟨h, hslot, rfl⟩ := map_beginInner?_eq_some_iff.mp hstep
      obtain ⟨s, hs, rfl⟩ := holder?_eq_some_iff.mp hslot
      exact .drop hs ‹_›
    · cases hstep

/-- Every step is what its action does. -/
theorem Step.eq_some {a : Action Id} (hstep : r.Step a r') : r.step a = some r' := by
  have hbegin {slot : Nat} {s : Slot Id} (hs : r.slots[slot]? = some s)
      (operation : Task.Operation) :
      (r.beginInner? slot operation).map Prod.snd = some (r.beginOn slot s.holder operation) :=
    map_beginInner?_eq_some_iff.mpr ⟨_, holder?_eq_some_iff.mpr ⟨s, hs, rfl⟩, rfl⟩
  cases hstep with
  | tick ms => rfl
  | put hfree => simp only [step, hfree]
  | own id factory idleTimeout => rfl
  | disown slot => rfl
  | inner hs hallowed hinner =>
    rw [Bool.or_eq_true] at hallowed
    simp [step, hs, hallowed, hinner]
  | ask hs howned => simp [step, hs, howned, hbegin hs]
  | drop hs hunreachable => simp [step, hunreachable, hbegin hs]
  | begin operation => rfl
  | reap hdue hnow => simp [step, hdue, hnow]
  | call hc hcall =>
    rw [step, hc]
    exact hcall.eq_some
  | abandonLookup hc => simp [step, hc, abandonStep]
  | abandonWait hc hslot hinner => simp [step, hc, abandonStep, hslot, hinner]

end PagedQuery.Task.Registry
