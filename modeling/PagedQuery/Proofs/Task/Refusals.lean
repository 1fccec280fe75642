import PagedQuery.Proofs.Task.Check

/-!
# Refused fetches

A fetch is refused if another call has the fetch lock. That call is a fetch in
progress, or an idle check: it has the lock while it compares the idle time, and
while it releases what a holder had that it has just reclaimed. So an idle check
that falls together with a fetch makes it look as if there were two fetches,
also on a holder that is not idle at all.

* `Holder.Occupies`: what a call does that has the fetch lock;
* `Holder.Step.refuses`: the step by which a fetch is refused;
* `Holder.refused_iff_of_run`: the refused fetches of a run;
* `Holder.not_refused_by_fetch`: a fetch that is refused though it is the only one.
-/

namespace PagedQuery.Task

namespace Holder

/-- What a call of the holder does while it has the fetch lock. -/
inductive Occupies (h : Holder) (s : Stage) : Prop where
  /-- It is a fetch in progress. -/
  | fetch (hs : s.isFetching = true)
  /-- It is an idle check, and compares the idle time. -/
  | decide (hs : s = .checkDecide)
  /-- It is an idle check that has closed the holder, and has not returned. -/
  | reclaim (hs : s.reclaims = true) (hreturned : s.isReturned = false)
      (hclosed : h.lifecycle = .closed)

section

variable {h h' g : Holder} {now c : Nat} {a : Action} {s : Stage} {as : List (Nat × Action)}

theorem Occupies.holdsFetchLock (hoccupies : h.Occupies s) : s.holdsFetchLock = true := by
  cases hoccupies with
  | fetch hs => exact Stage.holdsFetchLock_of_isFetching hs
  | decide hs => rw [hs]; rfl
  | reclaim hs hreturned hclosed =>
    cases s with
    | abortJobs e cancel after | cancelTask after | closeTask after =>
      cases after with
      | check => rfl
      | fetch result | cancel => cases hs
    | checkUnlock => rfl
    | returned reply => cases hreturned
    | _ => cases hs

/-- Whoever has the fetch lock is a fetch in progress or an idle check. -/
theorem Honest.occupies (hhonest : h.Honest) (hc : h.calls[c]? = some s)
    (hs : s.holdsFetchLock = true) : h.Occupies s := by
  have hmem := List.mem_of_getElem? hc
  have hclosed (hfollows : s.followsClose = true) : h.lifecycle = .closed :=
    Lifecycle.state_eq_closed_iff.mp (hhonest.closed s hmem hfollows)
  cases s with
  | close cancel after =>
    cases after with
    | fetch result => exact .fetch rfl
    | check => cases hhonest.coherent.calls _ hmem
    | cancel => cases hs
  | abortJobs e cancel after | cancelTask after | closeTask after =>
    cases after with
    | fetch result => exact .fetch rfl
    | check => exact .reclaim rfl rfl (hclosed rfl)
    | cancel => cases hs
  | checkDecide => exact .decide rfl
  | checkUnlock => exact .reclaim rfl rfl (hclosed rfl)
  | fetchStart | fetchWait | fetchFinish | fetchTouch | fetchUnlock | fetchPark | fetchLeave =>
    exact .fetch rfl
  | _ => cases hs

theorem Honest.fetchLock_ne_none_iff (hhonest : h.Honest) :
    h.fetchLock ≠ none ↔ ∃ s ∈ h.calls, h.Occupies s := by
  constructor
  · intro hlock
    obtain ⟨c, hlock⟩ := Option.ne_none_iff_exists'.mp hlock
    obtain ⟨s, hc, hs⟩ := (hhonest.sound.locked.fetch c).mp hlock
    exact ⟨s, List.mem_of_getElem? hc, hhonest.occupies hc hs⟩
  · rintro ⟨s, hmem, hoccupies⟩
    obtain ⟨c, hc⟩ := List.getElem?_of_mem hmem
    rw [(hhonest.sound.locked.fetch c).mpr ⟨s, hc, hoccupies.holdsFetchLock⟩]
    exact Option.some_ne_none c

/-- A fetch is refused by its first step, and only if somebody has the fetch lock. -/
theorem Step.refuses (hcoherent : h.Coherent) (hstep : h.Step now a h')
    (hc' : h'.calls[c]? = some (.returned (.fetched (.error .fetchInProgress)))) :
    h.calls[c]? = some (.returned (.fetched (.error .fetchInProgress))) ∨
      a = .call c ∧ h.fetchLock ≠ none ∧ ∃ timeout, h.calls[c]? = some (.fetchBegin timeout) := by
  by_cases hmover : a.mover? = some c
  · obtain ⟨s, s', hc, hs', hs, hback⟩ := hstep.getElem?_calls_of_mover hmover
    cases Option.some.inj (hc'.symm.trans hs')
    obtain ⟨timeout, rfl⟩ := eq_fetchBegin_of_mayReturn
      (hcoherent.calls s (List.mem_of_getElem? hc)) hs rfl (hback (.error .fetchInProgress) rfl)
    cases hstep with
    | refuse hbegin hlock =>
      cases hmover
      exact .inr ⟨rfl, hlock ▸ Option.some_ne_none _, timeout, hc⟩
    | lock hbegin hlock =>
      cases hmover
      rw [goTo, getElem?_set_self_of_some hbegin] at hc'
      cases hc'
    | abandonBegin hbegin =>
      cases hmover
      rw [reply, record, goTo, getElem?_set_self_of_some hbegin] at hc'
      cases hc'
    | _ =>
      cases hmover
      all_goals cases Option.some.inj (hc.symm.trans ‹h.calls[_]? = some _›)
  · rcases hstep.getElem?_calls_before hmover hc' with hc | ⟨operation, -, heq⟩
    · exact .inl hc
    · cases operation <;> cases heq

/-- A call that has returned stays so until the run ends. -/
theorem run_returned {reply : Reply} (hrun : h.run as = some h')
    (hc : h.calls[c]? = some (.returned reply)) : h'.calls[c]? = some (.returned reply) :=
  run_invariant (fun hc hstep => hstep.getElem?_calls_returned hc) hc hrun

/-- A fetch that finds the fetch lock taken is refused. -/
theorem Passes.refused {h₀ : Holder} {timeout : Nat} (hpass : h₀.Passes as g now (.call c))
    (hrun : h₀.run as = some h) (hc : g.calls[c]? = some (.fetchBegin timeout))
    (hlock : g.fetchLock ≠ none) :
    h.calls[c]? = some (.returned (.fetched (.error .fetchInProgress))) := by
  obtain ⟨before, g', after, -, hstep, hafter⟩ := hpass.split hrun
  refine run_returned hafter ?_
  cases step_of_eq_some hstep with
  | refuse hbegin hlock' => exact getElem?_set_self_of_some hbegin
  | lock hbegin hfree => exact absurd hfree hlock
  | _ => cases Option.some.inj (hc.symm.trans ‹g.calls[_]? = some _›)

end

/-- A fetch is refused exactly if another call has the fetch lock when the fetch asks for it: a
fetch in progress, or an idle check that compares the idle time or has just reclaimed the
holder. In every run, whatever the order of the calls. -/
theorem refused_iff_of_run {factory : Factory} {idleTimeout start c : Nat}
    {as : List (Nat × Action)} {h : Holder}
    (hrun : (Holder.new factory idleTimeout start).run as = some h) :
    h.reply? c = some (.fetched (.error .fetchInProgress)) ↔
      ∃ g now timeout, (Holder.new factory idleTimeout start).Passes as g now (.call c) ∧
        g.calls[c]? = some (.fetchBegin timeout) ∧ ∃ s ∈ g.calls, g.Occupies s := by
  rw [reply?_eq_some_iff]
  constructor
  · refine run_induction (P := fun as h =>
      h.calls[c]? = some (.returned (.fetched (.error .fetchInProgress))) →
        ∃ g now timeout, (Holder.new factory idleTimeout start).Passes as g now (.call c) ∧
          g.calls[c]? = some (.fetchBegin timeout) ∧ ∃ s ∈ g.calls, g.Occupies s) ?_ ?_ hrun
    · intro hc
      cases hc
    · intro as g now a g' hg hstep ih hc'
      have hhonest := run_honest hg
      rcases hstep.refuses hhonest.coherent hc' with hc | ⟨rfl, hlock, timeout, hc⟩
      · obtain ⟨g₁, now₁, timeout, hpass, hrest⟩ := ih hc
        exact ⟨g₁, now₁, timeout, hpass.append _, hrest⟩
      · exact ⟨g, now, timeout, passes_last hg, hc, hhonest.fetchLock_ne_none_iff.mp hlock⟩
  · rintro ⟨g, now, timeout, hpass, hc, hoccupied⟩
    obtain ⟨before, -, -, hbefore, -, -⟩ := hpass.split hrun
    exact hpass.refused hrun hc ((run_honest hbefore).fetchLock_ne_none_iff.mpr hoccupied)

/-- An idle check has both locks when a fetch begins. The check finds that the holder is not idle;
the fetch is refused. -/
def checkFirst : List (Nat × Action) :=
  [(1, .begin .check), (1, .call 0), (1, .call 0), (1, .begin (.fetch 10)), (1, .call 1),
    (1, .call 0)]

theorem refused_iff_of_run_checkFirst :
    ∃ h, (Holder.new oneRow 100 0).run checkFirst = some h ∧
      h.reply? 0 = some (.checked false) ∧
      h.reply? 1 = some (.fetched (.error .fetchInProgress)) ∧
      ∃ g now timeout, (Holder.new oneRow 100 0).Passes checkFirst g now (.call 1) ∧
        g.calls[1]? = some (.fetchBegin timeout) ∧ ∃ s ∈ g.calls, g.Occupies s := by
  obtain ⟨h, hrun, hchecked, hreply⟩ : ∃ h, (Holder.new oneRow 100 0).run checkFirst = some h ∧
      h.reply? 0 = some (.checked false) ∧
      h.reply? 1 = some (.fetched (.error .fetchInProgress)) :=
    ⟨_, rfl, rfl, rfl⟩
  exact ⟨h, hrun, hchecked, hreply, (refused_iff_of_run hrun).mp hreply⟩

/-- A fetch may be refused although no other fetch has begun and not returned. -/
theorem not_refused_by_fetch :
    ¬ ∀ (factory : Factory) (idleTimeout start now c : Nat) (as : List (Nat × Action))
        (g h : Holder),
        (Holder.new factory idleTimeout start).run as = some g →
        g.step now (.call c) = some h → g.reply? c = none →
        h.reply? c = some (.fetched (.error .fetchInProgress)) →
        ∃ c' s, c' ≠ c ∧ g.calls[c']? = some s ∧
          (s.isFetching = true ∨ ∃ timeout, s = .fetchBegin timeout) := by
  intro hall
  obtain ⟨c', s, hne, hc', hs⟩ :=
    hall oneRow 100 0 1 1 (checkFirst.take 4) _ _ rfl rfl rfl rfl
  -- the only other call is the idle check
  match c', hne, hc' with
  | 0, _, hc' =>
    cases hc'
    rcases hs with hs | ⟨timeout, hs⟩ <;> cases hs
  | 1, hne, _ => exact hne rfl
  | _ + 2, _, hc' => cases hc'

end Holder

end PagedQuery.Task
