import PagedQuery.Proofs.Task.Run

/-!
# Locks of a holder

Each lock is held by the one call that is at a stage between taking it and
releasing it, and by no other. So at most one call works on a batch at a time,
and the lifecycle is looked at and changed by one call at a time.

* `Owns`: a lock and the stages under it;
* `Holder.Locked`: both locks of a holder;
* `Holder.Step.locked`: every step respects them.
-/

namespace PagedQuery.Task

/-! ## Stages under a lock -/

def AfterClose.holdsFetchLock : AfterClose → Bool
  | .fetch _ => true
  | .check => true
  | .cancel => false

/-- The stages between taking the fetch lock and releasing it. -/
def Stage.holdsFetchLock : Stage → Bool
  | .fetchStart _ => true
  | .fetchWait .. => true
  | .fetchFinish .. => true
  | .fetchTouch _ => true
  | .fetchUnlock _ => true
  | .fetchPark _ => true
  | .fetchLeave => true
  | .close _ after => after.holdsFetchLock
  | .abortJobs _ _ after => after.holdsFetchLock
  | .cancelTask after => after.holdsFetchLock
  | .closeTask after => after.holdsFetchLock
  | .checkDecide => true
  | .checkUnlock => true
  | _ => false

/-- The stages of an idle check that holds the state lock. -/
def Stage.holdsStateLock : Stage → Bool
  | .checkInspect => true
  | .checkDecide => true
  | _ => false

/-- The call that has a lock is the only one at a stage under it. -/
def Owns (under : Stage → Bool) (lock : Option Nat) (calls : List Stage) : Prop :=
  ∀ c, lock = some c ↔ ∃ s, calls[c]? = some s ∧ under s = true

namespace Owns

variable {under : Stage → Bool} {lock : Option Nat} {calls : List Stage} {c : Nat} {s s' : Stage}

theorem nil : Owns under none [] := by
  intro c
  simp

/-- Two stages under a lock are of the same call. -/
theorem unique (h : Owns under lock calls) {c' : Nat} (hc : calls[c]? = some s)
    (hs : under s = true) (hc' : calls[c']? = some s') (hs' : under s' = true) : c = c' := by
  have hlock := (h c).mpr ⟨s, hc, hs⟩
  have hlock' := (h c').mpr ⟨s', hc', hs'⟩
  exact Option.some.inj (hlock.symm.trans hlock')

theorem append (h : Owns under lock calls) (hs : under s = false) :
    Owns under lock (calls ++ [s]) := by
  intro c
  rw [h c]
  constructor
  · rintro ⟨t, hc, ht⟩
    exact ⟨t, List.getElem?_append_left (List.getElem?_eq_some_iff.mp hc).1 ▸ hc, ht⟩
  · rintro ⟨t, hc, ht⟩
    rcases Holder.getElem?_of_append_singleton hc with hc | ⟨-, rfl⟩
    · exact ⟨t, hc, ht⟩
    · rw [hs] at ht
      cases ht

/-- The call goes on, and keeps the lock or stays without it. -/
theorem move (h : Owns under lock calls) (hc : calls[c]? = some s) (hs : under s' = under s) :
    Owns under lock (calls.set c s') := by
  intro c'
  rw [h c', Holder.getElem?_set_of_some hc]
  split
  · rename_i heq
    subst heq
    constructor
    · rintro ⟨t, hc', ht⟩
      cases Option.some.inj (hc.symm.trans hc')
      exact ⟨s', rfl, hs.trans ht⟩
    · rintro ⟨t, hc', ht⟩
      cases hc'
      exact ⟨s, hc, hs.symm.trans ht⟩
  · exact Iff.rfl

/-- The call takes the lock, which is free. -/
theorem acquire (h : Owns under none calls) (hc : calls[c]? = some s) (hs' : under s' = true) :
    Owns under (some c) (calls.set c s') := by
  intro c'
  rw [Holder.getElem?_set_of_some hc]
  split
  · rename_i heq
    subst heq
    exact ⟨fun _ => ⟨s', rfl, hs'⟩, fun _ => rfl⟩
  · rename_i hne
    rw [← h c']
    constructor
    · intro heq
      exact absurd (Option.some.inj heq) hne
    · intro heq
      cases heq

/-- The call that has the lock releases it. -/
theorem release (h : Owns under lock calls) (hc : calls[c]? = some s) (hs : under s = true)
    (hs' : under s' = false) : Owns under none (calls.set c s') := by
  intro c'
  rw [Holder.getElem?_set_of_some hc]
  constructor
  · intro heq
    cases heq
  · rintro ⟨t, hc', ht⟩
    split at hc'
    · rw [← Option.some.inj hc', hs'] at ht
      cases ht
    · rename_i hne
      exact absurd (h.unique hc hs hc' ht) hne

end Owns

namespace Holder

/-- Both locks are held as the stages of the calls say. -/
structure Locked (h : Holder) : Prop where
  fetch : Owns Stage.holdsFetchLock h.fetchLock h.calls
  state : Owns Stage.holdsStateLock h.stateLock h.calls

theorem locked_new (factory : Factory) (idleTimeout now : Nat) :
    (Holder.new factory idleTimeout now).Locked :=
  ⟨.nil, .nil⟩

theorem holdsFetchLock_stage (after : AfterClose) :
    after.stage.holdsFetchLock = after.holdsFetchLock := by
  cases after <;> rfl

theorem holdsStateLock_stage (after : AfterClose) : after.stage.holdsStateLock = false := by
  cases after <;> rfl

theorem Step.locked {h h' : Holder} {now : Nat} {a : Action} (hinv : h.Locked)
    (hstep : h.Step now a h') : h'.Locked := by
  obtain ⟨hfetch, hstate⟩ := hinv
  cases hstep with
  | begin operation =>
    constructor
    · exact hfetch.append (by cases operation <;> rfl)
    · exact hstate.append (by cases operation <;> rfl)
  -- the fetch lock changes hands
  | lock hc hlock =>
    rw [hlock] at hfetch
    exact ⟨hfetch.acquire hc rfl, hstate.move hc rfl⟩
  | unlock hc => exact ⟨hfetch.release hc rfl rfl, hstate.move hc rfl⟩
  | leave hc => exact ⟨hfetch.release hc rfl rfl, hstate.move hc rfl⟩
  | checkUnlock hc => exact ⟨hfetch.release hc rfl rfl, hstate.move hc rfl⟩
  -- the state lock changes hands
  | checkBegin hc hfree =>
    rw [hfree] at hstate
    exact ⟨hfetch.move hc rfl, hstate.acquire hc rfl⟩
  | checkClosed hc hlife => exact ⟨hfetch.move hc rfl, hstate.release hc rfl rfl⟩
  | checkFetching hc hlife hlock => exact ⟨hfetch.move hc rfl, hstate.release hc rfl rfl⟩
  | checkInspect hc hlife hlock =>
    rw [hlock] at hfetch
    exact ⟨hfetch.acquire hc rfl, hstate.move hc rfl⟩
  | keep hc hyoung => exact ⟨hfetch.release hc rfl rfl, hstate.release hc rfl rfl⟩
  | reclaimClosed hc hidle hlife => exact ⟨hfetch.move hc rfl, hstate.release hc rfl rfl⟩
  | reclaimPrepared hc hidle hlife => exact ⟨hfetch.move hc rfl, hstate.release hc rfl rfl⟩
  | reclaimExecuted hc hidle hlife => exact ⟨hfetch.move hc rfl, hstate.release hc rfl rfl⟩
  -- a close keeps what its call has
  | closeClosed hc hfree hlife =>
    exact ⟨hfetch.move hc (holdsFetchLock_stage _), hstate.move hc (holdsStateLock_stage _)⟩
  | closePrepared hc hfree hlife =>
    exact ⟨hfetch.move hc (holdsFetchLock_stage _), hstate.move hc (holdsStateLock_stage _)⟩
  | abortJobs hc =>
    exact ⟨hfetch.move hc (by split <;> rfl), hstate.move hc (by split <;> rfl)⟩
  | closeTask hc =>
    exact ⟨hfetch.move hc (holdsFetchLock_stage _), hstate.move hc (holdsStateLock_stage _)⟩
  | job hj hjob => cases hjob <;> exact ⟨hfetch, hstate⟩
  | worker hw hworker => cases hworker <;> exact ⟨hfetch, hstate⟩
  | _ =>
    -- any other call goes on with the locks that it has
    have hc := ‹h.calls[_]? = some _›
    exact ⟨hfetch.move hc rfl, hstate.move hc rfl⟩

end Holder

end PagedQuery.Task
