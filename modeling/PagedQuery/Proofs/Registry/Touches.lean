import PagedQuery.Proofs.Registry.Run
import PagedQuery.Proofs.Task.Check

/-!
# When a holder was last touched

A holder is touched when it is made, when a fetch that was let in begins its
batch, and when such a fetch returns. A fetch that is refused does not touch it,
nor does one return that was dropped while it waited. The time that the holder
keeps is the last of these.

* `Registry.Touches`: the steps that touch a holder;
* `Registry.LastTouch`: the last time of such a step in a run;
* `Registry.run_lastTouch`: it is the time that the holder keeps.
-/

namespace PagedQuery.Task.Registry

variable {Id : Type}

/-- The action makes the holder of `slot`, or is the step in which a fetch on it begins its batch
or is about to return. -/
def Touches (r : Registry Id) (slot : Nat) : Action Id → Prop
  | .put .. => slot = r.slots.length
  | .own .. => slot = r.slots.length
  | .inner slot' (.call k) =>
    slot' = slot ∧ ∃ h s, r.holder? slot = some h ∧ h.calls[k]? = some s ∧ s.touches = true
  | _ => False

variable [DecidableEq Id] {r r' q q' : Registry Id} {a : Action Id} {as : List (Action Id)}
  {slot time : Nat} {h h' : Holder}

/-- The holder of `slot` is touched at the time, in the run. -/
def TouchedAt (r : Registry Id) (as : List (Action Id)) (slot time : Nat) : Prop :=
  ∃ q a q', r.Passes as q a q' ∧ q.Touches slot a ∧ q.clock = time

/-- The time is the last one at which the holder of `slot` is touched in the run. -/
def LastTouch (r : Registry Id) (as : List (Action Id)) (slot time : Nat) : Prop :=
  r.TouchedAt as slot time ∧ ∀ time', r.TouchedAt as slot time' → time' ≤ time

theorem LastTouch.unique {time' : Nat} (hlast : r.LastTouch as slot time)
    (hlast' : r.LastTouch as slot time') : time = time' :=
  Nat.le_antisymm (hlast'.2 time hlast.1) (hlast.2 time' hlast'.1)

/-! ## Steps -/

theorem CallStep.clock_eq {c : Nat} {stage : Stage Id} (hcall : r.CallStep c stage r') :
    r'.clock = r.clock := by
  cases hcall with
  | sweepRemove => rw [foldl_removeCurrent]; rfl
  | _ => rfl

/-- Time does not go back. -/
theorem Step.clock_le (hstep : r.Step a r') : r.clock ≤ r'.clock := by
  cases hstep with
  | tick ms => exact Nat.le_add_right r.clock ms
  | call hc hcall => exact Nat.le_of_eq hcall.clock_eq.symm
  | _ => exact Nat.le_refl _

/-- A holder that is touched keeps the time. -/
theorem Step.lastTouched_of_touches (hstep : r.Step a r') (htouches : r.Touches slot a)
    (hslot : r'.holder? slot = some h') : h'.lastTouched = r.clock := by
  cases hstep with
  | put hfree =>
    obtain rfl : slot = r.slots.length := htouches
    simp [holder?, addSlot] at hslot
    rw [← hslot]
    rfl
  | own id factory idleTimeout =>
    obtain rfl : slot = r.slots.length := htouches
    simp [holder?, addSlot] at hslot
    rw [← hslot]
    rfl
  | @inner slot' b s h₁ hs hallowed hinner =>
    cases b with
    | call k =>
      obtain ⟨rfl, h, stage, hold, hk, hstage⟩ := htouches
      have hsame : r.holder? slot' = some s.holder := holder?_eq_some_iff.mpr ⟨s, hs, rfl⟩
      cases Option.some.inj (hsame.symm.trans hold)
      rw [holder?_setHolder hsame] at hslot
      cases hslot
      exact (Holder.step_of_eq_some hinner).lastTouched_of_touches hk hstage
    | _ => cases htouches
  | _ => cases htouches

/-- A holder that is not touched keeps the time that it had. -/
theorem Step.lastTouched_of_not_touches (hstep : r.Step a r') (hnot : ¬ r.Touches slot a)
    (hslot : r'.holder? slot = some h') :
    ∃ h, r.holder? slot = some h ∧ h'.lastTouched = h.lastTouched := by
  rcases hstep.motion.before hslot with
    ⟨hmakes, rfl, -⟩ | ⟨h, hold, rfl | ⟨b, hinner, hcause⟩⟩
  · cases a with
    | put id factory => exact absurd rfl hnot
    | own id factory idleTimeout => exact absurd rfl hnot
    | _ => cases hmakes
  · exact ⟨h', hold, rfl⟩
  · refine ⟨h, hold, ?_⟩
    rcases hinner.lastTouched_eq with hsame | ⟨-, k, s, rfl, hk, hs⟩
    · exact hsame
    · cases hcause rfl
      exact absurd ⟨rfl, h, s, hold, hk, hs⟩ hnot

/-! ## Runs -/

theorem touchedAt_concat_iff (hrun : r.run as = some q) (hstep : q.step a = some q') :
    r.TouchedAt (as ++ [a]) slot time ↔
      r.TouchedAt as slot time ∨ q.Touches slot a ∧ q.clock = time := by
  constructor
  · rintro ⟨q₁, b, q₁', hpass, htouches, hclock⟩
    rcases passes_concat_iff.mp hpass with hpass | ⟨rfl, hq₁, -⟩
    · exact .inl ⟨q₁, b, q₁', hpass, htouches, hclock⟩
    · cases Option.some.inj (hrun.symm.trans hq₁)
      exact .inr ⟨htouches, hclock⟩
  · rintro (⟨q₁, b, q₁', hpass, htouches, hclock⟩ | ⟨htouches, hclock⟩)
    · exact ⟨q₁, b, q₁', passes_concat_iff.mpr (.inl hpass), htouches, hclock⟩
    · exact ⟨q, a, q', passes_concat_iff.mpr (.inr ⟨rfl, hrun, hstep⟩), htouches, hclock⟩

/-- The time that a holder keeps is that of its last touch, in every run. -/
theorem run_lastTouch {config : EngineConfig} (hrun : (start config).run as = some r)
    (hslot : r.holder? slot = some h) : (start config).LastTouch as slot h.lastTouched := by
  have hboth : (∀ time, (start config).TouchedAt as slot time → time ≤ r.clock) ∧
      ∀ h, r.holder? slot = some h → (start config).LastTouch as slot h.lastTouched := by
    refine run_induction (P := fun as r =>
      (∀ time, (start config).TouchedAt as slot time → time ≤ r.clock) ∧
        ∀ h, r.holder? slot = some h → (start config).LastTouch as slot h.lastTouched) ?_ ?_ hrun
    · constructor
      · rintro time ⟨q, a, q', ⟨before, after, heq, -⟩, -⟩
        simp at heq
      · intro h hslot
        cases hslot
    · intro as q a q' hq hstep ih
      obtain ⟨hpast, hlast⟩ := ih
      have hstep' := step_of_eq_some hstep
      have htouched (time : Nat) : (start config).TouchedAt (as ++ [a]) slot time ↔
          (start config).TouchedAt as slot time ∨ q.Touches slot a ∧ q.clock = time :=
        touchedAt_concat_iff hq hstep
      constructor
      · intro time htime
        rcases (htouched time).mp htime with hold | ⟨-, rfl⟩
        · exact Nat.le_trans (hpast time hold) hstep'.clock_le
        · exact hstep'.clock_le
      · intro h' hslot'
        by_cases htouches : q.Touches slot a
        · rw [hstep'.lastTouched_of_touches htouches hslot']
          refine ⟨(htouched q.clock).mpr (.inr ⟨htouches, rfl⟩), ?_⟩
          intro time htime
          rcases (htouched time).mp htime with hold | ⟨-, rfl⟩
          · exact hpast time hold
          · exact Nat.le_refl _
        · obtain ⟨h, hslot, hsame⟩ := hstep'.lastTouched_of_not_touches htouches hslot'
          rw [hsame]
          obtain ⟨htime, hlatest⟩ := hlast h hslot
          refine ⟨(htouched _).mpr (.inl htime), ?_⟩
          intro time htime'
          rcases (htouched time).mp htime' with hold | ⟨hyes, -⟩
          · exact hlatest time hold
          · exact absurd hyes htouches
  exact hboth.2 h hslot

end PagedQuery.Task.Registry
