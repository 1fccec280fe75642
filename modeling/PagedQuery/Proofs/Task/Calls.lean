import PagedQuery.Proofs.Task.Replies

/-!
# What becomes of a call

A call goes on by its own steps only, and stays where it is once it has
returned. What a fetch returns in the end says which way it went: one that was
refused did nothing but try the fetch lock, one that says that there is more has
stored the source of the next batch and closed nothing.

* `Action.mover?`, `Holder.Step.moves`: the call that a step moves, and how;
* `Stage.MayReturn`: the results that a fetch may still return;
* `Holder.Undisturbed`: nothing is different but calls and log;
* `Holder.Step.refused`, `Holder.Step.accepts`, `Holder.Step.stays_open`: the steps of a fetch
  that returns a result of a kind.
-/

namespace PagedQuery.Task

/-- The call that takes a step by the action. -/
def Action.mover? : Action → Option Nat
  | .call c => some c
  | .expire c => some c
  | .abandon c => some c
  | .busy c => some c
  | _ => none

def Stage.isReturned : Stage → Bool
  | .returned _ => true
  | _ => false

/-- Whether the call will return the result after closing the holder. -/
def AfterClose.Returns (result : FetchResult) : AfterClose → Prop
  | .fetch found => result = found
  | _ => False

/-- Whether a fetch at the stage may still return the result, or has returned it. -/
def Stage.MayReturn (result : FetchResult) : Stage → Prop
  | .fetchBegin _ => True
  | .fetchStart _ => isAnswer result = true
  | .fetchWait .. => isAnswer result = true
  | .fetchFinish batch _ => result = .ok batch ∨ result = .error .closed
  | .fetchTouch found => result = found
  | .fetchUnlock found => result = found
  | .close _ after => after.Returns result
  | .abortJobs _ _ after => after.Returns result
  | .cancelTask after => after.Returns result
  | .closeTask after => after.Returns result
  | .returned (.fetched found) => result = found
  | _ => False

/-- Whether a fetch at the stage has accepted a batch and holds on to it. -/
def Stage.HasAccepted (batch : Batch) : Stage → Prop
  | .fetchTouch result => result = .ok batch
  | .fetchUnlock result => result = .ok batch
  | .returned (.fetched result) => result = .ok batch
  | _ => False

theorem AfterClose.returns_of_stage {result : FetchResult} {after : AfterClose}
    (hreturn : after.stage.MayReturn result) : after.Returns result := by
  cases after with
  | fetch found => exact hreturn
  | check => exact hreturn
  | cancel => exact hreturn

/-- A fetch that closes the holder returns a result that ends the task. -/
theorem AfterClose.isFinal_of_returns {result : FetchResult} {after : AfterClose}
    (hcoherent : after.isCoherent = true) (hreturn : after.Returns result) :
    Registry.isFinal result = true := by
  cases after with
  | fetch found =>
    cases hreturn
    exact hcoherent
  | check => cases hreturn
  | cancel => cases hreturn

namespace Holder

section

variable {h h' : Holder} {now c : Nat} {a : Action} {s : Stage} {result : FetchResult}

/-! ## The moves of calls -/

/-- A call that takes a step has not returned, and returns nothing in the end that it could not
have returned before. -/
theorem Step.moves (hstep : h.Step now a h') (hmover : a.mover? = some c) :
    ∃ s s', h.calls[c]? = some s ∧ h'.calls = h.calls.set c s' ∧ s.isReturned = false ∧
      ∀ result, s'.MayReturn result → s.MayReturn result := by
  cases hstep with
  | begin operation => cases hmover
  | job hj => cases hmover
  | worker hw => cases hmover
  -- an error is said before the fetch is over
  | createFails hc | startNothing hc | startClosed hc | receiveFailed hc | receiveCrashed hc
  | receiveAborted hc | expire hc =>
    cases hmover
    refine ⟨_, _, hc, rfl, rfl, ?_⟩
    rintro _ rfl
    rfl
  -- a batch is taken, and accepted or lost
  | receive hc =>
    cases hmover
    refine ⟨_, _, hc, rfl, rfl, ?_⟩
    rintro _ (rfl | rfl)
    · rfl
    · rfl
  | accept hc | acceptLast hc =>
    cases hmover
    exact ⟨_, _, hc, rfl, rfl, fun _ => .inl⟩
  | lose hc =>
    cases hmover
    exact ⟨_, _, hc, rfl, rfl, fun _ => .inr⟩
  -- the holder is closed
  | closeClosed hc | closePrepared hc | closeTask hc =>
    cases hmover
    exact ⟨_, _, hc, rfl, rfl, fun _ => AfterClose.returns_of_stage⟩
  | abortJobs hc =>
    cases hmover
    refine ⟨_, _, hc, rfl, rfl, ?_⟩
    intro result hreturn
    split at hreturn <;> exact hreturn
  -- a fetch is refused or begins
  | refuse hc | lock hc =>
    cases hmover
    exact ⟨_, _, hc, rfl, rfl, fun _ _ => trivial⟩
  -- what the call returns stays the same
  | create hc | resume hc | start hc | touch hc | unlock hc | closeExecuted hc | cancelTask hc =>
    cases hmover
    exact ⟨_, _, hc, rfl, rfl, fun _ hreturn => hreturn⟩
  | _ =>
    -- the call is not a fetch, or is dropped
    cases hmover
    have hc := ‹h.calls[_]? = some _›
    exact ⟨_, _, hc, rfl, rfl, fun _ hreturn => hreturn.elim⟩

/-- By any other action calls stay where they are. -/
theorem Step.calls_eq_of_mover?_eq_none (hstep : h.Step now a h') (hmover : a.mover? = none) :
    h'.calls = h.calls ∨ ∃ operation, a = .begin operation ∧
      h'.calls = h.calls ++ [firstStage operation] := by
  cases hstep with
  | begin operation => exact .inr ⟨operation, rfl, rfl⟩
  | job hj hjob => cases hjob <;> exact .inl rfl
  | worker hw hworker => cases hworker <;> exact .inl rfl
  | _ => cases hmover

/-- A call that does not move stays where it is. -/
theorem Step.getElem?_calls_of_ne (hstep : h.Step now a h') (hmover : a.mover? ≠ some c)
    (hc : h.calls[c]? = some s) : h'.calls[c]? = some s := by
  cases heq : a.mover? with
  | none =>
    rcases hstep.calls_eq_of_mover?_eq_none heq with hcalls | ⟨operation, -, hcalls⟩
    · rw [hcalls, hc]
    · rw [hcalls, List.getElem?_append_left (List.getElem?_eq_some_iff.mp hc).1, hc]
  | some c' =>
    obtain ⟨_, _, -, hcalls, -⟩ := hstep.moves heq
    rw [hcalls, List.getElem?_set_ne ?_, hc]
    rintro rfl
    exact hmover heq

/-- A call that did not move was where it is, or is new. -/
theorem Step.getElem?_calls_before (hstep : h.Step now a h') (hmover : a.mover? ≠ some c)
    (hc : h'.calls[c]? = some s) :
    h.calls[c]? = some s ∨ ∃ operation, a = .begin operation ∧ s = firstStage operation := by
  cases heq : a.mover? with
  | none =>
    rcases hstep.calls_eq_of_mover?_eq_none heq with hcalls | ⟨operation, ha, hcalls⟩
    · exact .inl (hcalls ▸ hc)
    · rw [hcalls] at hc
      rcases getElem?_of_append_singleton hc with hc | ⟨-, rfl⟩
      · exact .inl hc
      · exact .inr ⟨operation, ha, rfl⟩
  | some c' =>
    obtain ⟨_, _, -, hcalls, -⟩ := hstep.moves heq
    rw [hcalls, List.getElem?_set_ne ?_] at hc
    · exact .inl hc
    · rintro rfl
      exact hmover heq

theorem Step.getElem?_calls_of_mover (hstep : h.Step now a h') (hmover : a.mover? = some c) :
    ∃ s s', h.calls[c]? = some s ∧ h'.calls[c]? = some s' ∧ s.isReturned = false ∧
      ∀ result, s'.MayReturn result → s.MayReturn result := by
  obtain ⟨s, s', hc, hcalls, hs, hreturn⟩ := hstep.moves hmover
  refine ⟨s, s', hc, ?_, hs, hreturn⟩
  rw [hcalls, getElem?_set_self_of_some hc]

/-- No call is forgotten. -/
theorem Step.exists_call (hstep : h.Step now a h') (hc : h.calls[c]? = some s) :
    ∃ s', h'.calls[c]? = some s' := by
  by_cases hmover : a.mover? = some c
  · obtain ⟨_, s', -, hc', -⟩ := hstep.getElem?_calls_of_mover hmover
    exact ⟨s', hc'⟩
  · exact ⟨s, hstep.getElem?_calls_of_ne hmover hc⟩

/-- A call that has returned stays so. -/
theorem Step.getElem?_calls_returned (hstep : h.Step now a h') {reply : Reply}
    (hc : h.calls[c]? = some (.returned reply)) : h'.calls[c]? = some (.returned reply) := by
  by_cases hmover : a.mover? = some c
  · obtain ⟨s, _, hs, -, hreturned, -⟩ := hstep.getElem?_calls_of_mover hmover
    cases Option.some.inj (hc.symm.trans hs)
    cases hreturned
  · exact hstep.getElem?_calls_of_ne hmover hc

/-- What a fetch may return after a step, it might have returned before. -/
theorem Step.mayReturn (hstep : h.Step now a h') {s' : Stage} (hc : h.calls[c]? = some s)
    (hc' : h'.calls[c]? = some s') (hreturn : s'.MayReturn result) : s.MayReturn result := by
  by_cases hmover : a.mover? = some c
  · obtain ⟨_, _, hs, hs', -, hback⟩ := hstep.getElem?_calls_of_mover hmover
    cases Option.some.inj (hc.symm.trans hs)
    cases Option.some.inj (hc'.symm.trans hs')
    exact hback result hreturn
  · cases Option.some.inj (hc'.symm.trans (hstep.getElem?_calls_of_ne hmover hc))
    exact hreturn

/-- A call that is about to close the holder has done so after its next step. -/
theorem Step.close_or_closed {cancel : Bool} {after : AfterClose} (hstep : h.Step now a h')
    (hc : h.calls[c]? = some (.close cancel after)) :
    h'.calls[c]? = some (.close cancel after) ∨ h'.lifecycle.state = .closed := by
  by_cases hmover : a.mover? = some c
  · cases hstep with
    | closeClosed hc' hfree hlife => exact .inr (congrArg Lifecycle.state hlife)
    | closePrepared hc' | closeExecuted hc' => exact .inr rfl
    | _ =>
      cases hmover
      all_goals cases Option.some.inj (hc.symm.trans ‹h.calls[_]? = some _›)
  · exact .inl (hstep.getElem?_calls_of_ne hmover hc)

/-! ## Fetches by their results -/

/-- Nothing is different but the calls and the log. -/
def Undisturbed (h h' : Holder) : Prop :=
  h' = { h with calls := h'.calls, log := h'.log }

theorem undisturbed_refl (h : Holder) : h.Undisturbed h :=
  rfl

theorem undisturbed_begin (h : Holder) (operation : Operation) :
    h.Undisturbed { h with calls := h.calls ++ [firstStage operation] } :=
  rfl

/-- Only a fetch that has not begun may still return what a fetch with the fetch lock does not. -/
theorem eq_fetchBegin_of_mayReturn (hcoherent : s.isCoherent = true) (hs : s.isReturned = false)
    (hnot : isAnswer result = false) (hreturn : s.MayReturn result) :
    ∃ timeout, s = .fetchBegin timeout := by
  have hno (hanswer : isAnswer result = true) : ∃ timeout, s = .fetchBegin timeout := by
    rw [hnot] at hanswer
    cases hanswer
  have hafter {after : AfterClose} (hcoherent : after.isCoherent = true)
      (hreturn : after.Returns result) : isAnswer result = true :=
    isAnswer_of_isFinal (AfterClose.isFinal_of_returns hcoherent hreturn)
  cases s with
  | fetchBegin timeout => exact ⟨timeout, rfl⟩
  | fetchStart timeout | fetchWait j deadline => exact hno hreturn
  | fetchFinish batch next => rcases hreturn with rfl | rfl <;> cases hnot
  | fetchTouch found | fetchUnlock found =>
    cases hreturn
    exact hno hcoherent
  | close cancel after => exact hno (hafter (Stage.isCoherent_close hcoherent) hreturn)
  | abortJobs e cancel after | cancelTask after | closeTask after =>
    exact hno (hafter hcoherent hreturn)
  | returned reply => cases hs
  | _ => cases hreturn

/-- A fetch that is refused does nothing. -/
theorem Step.refused {s' : Stage} (hcoherent : h.Coherent) (hstep : h.Step now a h')
    (hmover : a.mover? = some c) (hc' : h'.calls[c]? = some s') (hnot : isAnswer result = false)
    (hreturn : s'.MayReturn result) : h.Undisturbed h' := by
  obtain ⟨s, s'', hc, hc'', hs, -⟩ := hstep.getElem?_calls_of_mover hmover
  obtain ⟨timeout, rfl⟩ := eq_fetchBegin_of_mayReturn (hcoherent.calls s (List.mem_of_getElem? hc))
    hs hnot (hstep.mayReturn hc hc' hreturn)
  cases hstep with
  | refuse hrefused hlock | abandonBegin hrefused => rfl
  | lock hbegin hlock =>
    cases hmover
    rw [goTo, getElem?_set_self_of_some hbegin] at hc'
    cases hc'
    have hanswer : isAnswer result = true := hreturn
    rw [hnot] at hanswer
    cases hanswer
  | _ =>
    cases hmover
    all_goals cases Option.some.inj (hc.symm.trans ‹h.calls[_]? = some _›)

/-- A fetch that says that there is more does not close the holder. -/
theorem Step.open_of_mayReturn {s' : Stage} {batch : Batch} (hcoherent : h.Coherent)
    (hstep : h.Step now a h') (hmover : a.mover? = some c) (hc' : h'.calls[c]? = some s')
    (hreturn : s'.MayReturn (.ok batch)) (hnext : batch.hasNext = true)
    (hclosed : h'.lifecycle.state = .closed) : h.lifecycle.state = .closed := by
  have hnot {after : AfterClose} (hcoherent : after.isCoherent = true) :
      ¬ after.Returns (.ok batch) := by
    intro hreturn
    have hfinal : (!batch.hasNext) = true := AfterClose.isFinal_of_returns hcoherent hreturn
    rw [hnext] at hfinal
    cases hfinal
  have hback {s : Stage} (hc : h.calls[c]? = some s) := hstep.mayReturn hc hc' hreturn
  cases hstep with
  | createFails hc =>
    cases hmover
    rw [goTo, getElem?_set_self_of_some hc] at hc'
    cases hc'
    cases hreturn
  | closePrepared hc | closeExecuted hc =>
    cases hmover
    have hafter := Stage.isCoherent_close (hcoherent.calls _ (List.mem_of_getElem? hc))
    exact absurd (hback hc) (hnot hafter)
  | reclaimPrepared hc | reclaimExecuted hc =>
    cases hmover
    cases hback hc
  | create hc hfree hlife | resume hc hfree hlife | start hc hfree hlife | park hc hfree hlife
  | accept hc hfree hlife | acceptLast hc hfree hlife => cases hclosed
  | job hj | worker hw => cases hmover
  | _ => exact hclosed

/-- Where the call is that has taken the step. -/
theorem eq_of_mover {calls : List Stage} {c' : Nat} {s' s'' : Stage} (heq : some c' = some c)
    (hc : calls[c']? = some s) (hset : (calls.set c' s'')[c]? = some s') : s' = s'' := by
  cases heq
  exact (eq_of_getElem?_set_self hc hset).symm

/-- The source of the next batch is stored when a fetch accepts a batch that says that there is
more. -/
theorem Step.accepts {s' : Stage} {batch : Batch} (hcoherent : h.Coherent)
    (hstep : h.Step now a h') (hc' : h'.calls[c]? = some s') (hs' : s'.HasAccepted batch)
    (hnext : batch.hasNext = true) :
    (∃ s, h.calls[c]? = some s ∧ s.HasAccepted batch) ∨
      a = .call c ∧ ∃ source e, h.calls[c]? = some (.fetchFinish batch (some source)) ∧
        h'.lifecycle = .executed e ∧ e.source = some source := by
  by_cases hmover : a.mover? = some c
  · have hlast {after : AfterClose} (hcoherent : after.isCoherent = true) :
        ¬ after.stage.HasAccepted batch := by
      intro haccepted
      cases after with
      | fetch found =>
        cases haccepted
        have hfinal : (!batch.hasNext) = true := hcoherent
        rw [hnext] at hfinal
        cases hfinal
      | check | cancel => cases haccepted
    cases hstep with
    | begin operation => cases hmover
    | job hj | worker hw => cases hmover
    | accept hc hfree hlife =>
      obtain rfl := eq_of_mover hmover hc hc'
      cases hmover
      cases hs'
      exact .inr ⟨rfl, _, _, hc, rfl, rfl⟩
    | touch hc | unlock hc =>
      obtain rfl := eq_of_mover hmover hc hc'
      cases hmover
      exact .inl ⟨_, hc, hs'⟩
    | closeClosed hc | closePrepared hc =>
      obtain rfl := eq_of_mover hmover hc hc'
      have hafter := Stage.isCoherent_close (hcoherent.calls _ (List.mem_of_getElem? hc))
      exact absurd hs' (hlast hafter)
    | closeTask hc =>
      obtain rfl := eq_of_mover hmover hc hc'
      have hafter := hcoherent.calls _ (List.mem_of_getElem? hc)
      exact absurd hs' (hlast hafter)
    | abortJobs hc =>
      obtain rfl := eq_of_mover hmover hc hc'
      split at hs' <;> cases hs'
    | _ =>
      obtain rfl := eq_of_mover hmover ‹h.calls[_]? = some _› hc'
      cases hs'
  · rcases hstep.getElem?_calls_before hmover hc' with hc | ⟨operation, -, rfl⟩
    · exact .inl ⟨s', hc, hs'⟩
    · cases operation <;> cases hs'

end

end Holder

end PagedQuery.Task
