import Mathlib.Logic.Relation
import PagedQuery.Proofs.Task.Run

/-!
# The life of a task

A holder makes its task at most once, and gives it up in one place: whichever
call moves the holder to closed takes the task with it, cancels it if there is
something to cancel, and closes it. The calls race, so what matters is which of
them owns the task, and the phases of a holder say just that.

* `Holder.Phase`, `Holder.InPhase`: who owns the task, and what has been done with it;
* `Holder.Passage`: what a step does to the task, one case for each of its transitions;
* `Holder.InPhase.step`, `Holder.run_phase`: every run goes through the phases in order;
* `Holder.task_closed_once`: creation, cancellation and close of the task of a holder.
-/

namespace PagedQuery.Task

/-! ## What is done with a task -/

/-- The events that concern the task itself. -/
inductive TaskEvent where
  | creating
  | created
  | cancelled
  | closed
deriving DecidableEq

def Event.task? : Event → Option TaskEvent
  | .creating => some .creating
  | .created => some .created
  | .taskCancelled => some .cancelled
  | .taskClosed => some .closed
  | _ => none

/-- The stages of the call that releases the task of a closed holder. -/
def Stage.isReleasing : Stage → Bool
  | .abortJobs .. => true
  | .cancelTask _ => true
  | .closeTask _ => true
  | _ => false

/-- Whether a call that closes the holder is about to return a batch, the last one. -/
def Stage.exhausts : Stage → Bool
  | .close _ (.fetch (.ok _)) => true
  | _ => false

/-- Whether a call that is about to return its last batch would cancel the task. -/
def Stage.cancelsResult : Stage → Bool
  | .close true (.fetch (.ok _)) => true
  | _ => false

/-- How the lifecycle may move: from prepared to executed, and from both to closed. -/
def TaskState.Leads : TaskState → TaskState → Prop
  | .prepared, _ => True
  | .executed, s => s ≠ .prepared
  | .closed, s => s = .closed

namespace Holder

/-- What has been done with the task so far. -/
def ledger (h : Holder) : List TaskEvent :=
  h.log.filterMap Event.task?

/-- Who owns the task of a holder. -/
inductive Phase where
  /-- There is no task yet. -/
  | prepared
  /-- The holder has it. -/
  | executed
  /-- The holder was closed without a task. -/
  | vacant
  /-- The call that closed the holder has it, and cancels it before it closes it, or not. -/
  | releasing (c : Nat) (cancel : Bool)
  /-- The task has been closed. -/
  | released (cancel : Bool)

/-- How one phase follows another. -/
inductive Phase.Next : Phase → Phase → Prop where
  | same (p : Phase) : Next p p
  | create : Next .prepared .executed
  | vacate : Next .prepared .vacant
  | close (c : Nat) (cancel : Bool) : Next .executed (.releasing c cancel)
  | release (c : Nat) (cancel : Bool) : Next (.releasing c cancel) (.released cancel)

/-- The events of a task that is cancelled first, or not. -/
def cancelEvents (cancel : Bool) : List TaskEvent :=
  if cancel then [.cancelled] else []

/-- What a releasing call has done with the task before its stage. -/
def releaseEvents (cancel : Bool) : Stage → Option (List TaskEvent)
  | .abortJobs _ cancel' _ => if cancel' = cancel then some [.creating, .created] else none
  | .cancelTask _ => if cancel then some [.creating, .created] else none
  | .closeTask _ => some ([.creating, .created] ++ cancelEvents cancel)
  | _ => none

/-- No call releases a task. -/
def NoRelease (h : Holder) : Prop :=
  ∀ (c : Nat) (s : Stage), h.calls[c]? = some s → s.isReleasing = false

/-- What is true of a holder in a phase. -/
def InPhase (h : Holder) : Phase → Prop
  | .prepared => h.lifecycle.state = .prepared ∧ h.ledger = [] ∧ h.NoRelease
  | .executed => h.lifecycle.state = .executed ∧ h.ledger = [.creating, .created] ∧ h.NoRelease
  | .vacant => h.lifecycle.state = .closed ∧ .created ∉ h.ledger ∧
      (h.ledger = [] ∨ h.ledger = [.creating]) ∧ h.NoRelease
  | .releasing c cancel => h.lifecycle.state = .closed ∧
      (∃ s, h.calls[c]? = some s ∧ releaseEvents cancel s = some h.ledger) ∧
      ∀ (c' : Nat) (s : Stage), h.calls[c']? = some s → s.isReleasing = true → c' = c
  | .released cancel => h.lifecycle.state = .closed ∧
      h.ledger = [.creating, .created] ++ cancelEvents cancel ++ [.closed] ∧ h.NoRelease

/-! ## What a step does to the task -/

/-- What a step does to the task of a holder. -/
inductive Passage (h : Holder) (a : Action) (h' : Holder) : Prop where
  /-- The step has nothing to do with the task. -/
  | keep (hstate : h'.lifecycle.state = h.lifecycle.state) (hledger : h'.ledger = h.ledger)
      (hsame : SameStages Stage.isReleasing h.calls h'.calls)
  | create (hstate : h.lifecycle.state = .prepared) (hstate' : h'.lifecycle.state = .executed)
      (hledger : h'.ledger = h.ledger ++ [.creating, .created])
      (hsame : SameStages Stage.isReleasing h.calls h'.calls)
  /-- The holder closes without a task, perhaps because it could not be made. -/
  | vacate {c : Nat} (ha : a = .call c) (hstate : h.lifecycle.state = .prepared)
      (hstate' : h'.lifecycle.state = .closed)
      (hledger : h'.ledger = h.ledger ∨ h'.ledger = h.ledger ++ [.creating])
      (hsame : SameStages Stage.isReleasing h.calls h'.calls)
  | close {c : Nat} {s : Stage} {e : Execution} {cancel : Bool} {after : AfterClose}
      (ha : a = .call c) (hc : h.calls[c]? = some s)
      (hs : s = .close cancel after ∨ s = .checkDecide)
      (hstate : h.lifecycle.state = .executed) (hstate' : h'.lifecycle.state = .closed)
      (hledger : h'.ledger = h.ledger)
      (hcalls : h'.calls = h.calls.set c (.abortJobs e cancel after))
  | abort {c : Nat} {e : Execution} {cancel : Bool} {after : AfterClose}
      (hc : h.calls[c]? = some (.abortJobs e cancel after))
      (hstate : h'.lifecycle.state = h.lifecycle.state) (hledger : h'.ledger = h.ledger)
      (hcalls : h'.calls =
        h.calls.set c (if cancel then .cancelTask after else .closeTask after))
  | cancel {c : Nat} {after : AfterClose} (hc : h.calls[c]? = some (.cancelTask after))
      (hstate : h'.lifecycle.state = h.lifecycle.state)
      (hledger : h'.ledger = h.ledger ++ [.cancelled])
      (hcalls : h'.calls = h.calls.set c (.closeTask after))
  | release {c : Nat} {after : AfterClose} (hc : h.calls[c]? = some (.closeTask after))
      (hstate : h'.lifecycle.state = h.lifecycle.state)
      (hledger : h'.ledger = h.ledger ++ [.closed])
      (hcalls : h'.calls = h.calls.set c after.stage)

theorem isReleasing_stage (after : AfterClose) : after.stage.isReleasing = false := by
  cases after <;> rfl

theorem isReleasing_firstStage (operation : Operation) :
    (firstStage operation).isReleasing = false := by
  cases operation <;> rfl

section

variable {h h' : Holder} {c : Nat} {s s' : Stage}

theorem NoRelease.of_same (hno : h.NoRelease)
    (hsame : SameStages Stage.isReleasing h.calls h'.calls) : h'.NoRelease := by
  intro c s hc
  cases hs : s.isReleasing with
  | false => rfl
  | true =>
    have hfalse := hno c s ((hsame c s hs).mp hc)
    rw [hs] at hfalse
    cases hfalse

theorem ledger_append (events : List Event) :
    (h.log ++ events).filterMap Event.task? = h.ledger ++ events.filterMap Event.task? :=
  List.filterMap_append

/-- Moving one call on is no concern of the task if neither stage is one of a release. -/
theorem Passage.goTo {a : Action} (hc : h.calls[c]? = some s) (hs : s.isReleasing = false)
    (hs' : s'.isReleasing = false) (hcalls : h'.calls = h.calls.set c s')
    (hstate : h'.lifecycle.state = h.lifecycle.state) (hlog : h'.log = h.log) :
    h.Passage a h' := by
  refine .keep hstate ?_ (by rw [hcalls]; exact .set hc hs hs')
  rw [ledger, hlog, ledger]

theorem Passage.reply {a : Action} {r : Reply} (hc : h.calls[c]? = some s)
    (hs : s.isReleasing = false) (hcalls : h'.calls = h.calls.set c (.returned r))
    (hstate : h'.lifecycle.state = h.lifecycle.state) (hlog : h'.log = h.log ++ [.replied c r]) :
    h.Passage a h' := by
  refine .keep hstate ?_ (by rw [hcalls]; exact .set hc hs rfl)
  rw [ledger, hlog, ledger_append]
  exact List.append_nil _

theorem task?_events (after : AfterClose) : (after.events c).filterMap Event.task? = [] := by
  cases after <;> rfl

theorem task?_connection {f : Nat → Event} (hf : ∀ n, (f n).task? = none)
    (connection : Option Nat) : (connection.toList.map f).filterMap Event.task? = [] := by
  cases connection with
  | none => rfl
  | some n => simp [hf n]

theorem ledger_afterClose {after : AfterClose} (hlog : h'.log = h.log ++ after.events c) :
    h'.ledger = h.ledger := by
  rw [ledger, hlog, ledger_append, task?_events, List.append_nil]

end

theorem JobStep.passage {h h' : Holder} {a : Action} {j : Nat} {job : Job}
    (hstep : h.JobStep j job h') : h.Passage a h' := by
  cases hstep <;> exact .keep rfl rfl (.refl _ _)

theorem WorkerStep.passage {h h' : Holder} {a : Action} {w : Nat} {worker : Worker}
    (hstep : h.WorkerStep w worker h') : h.Passage a h' := by
  cases hstep with
  | connect hopen hconnect =>
    exact .keep rfl ((ledger_append _).trans (List.append_nil _)) (.refl _ _)
  | connectFails hopen hconnect =>
    exact .keep rfl ((ledger_append _).trans (List.append_nil _)) (.refl _ _)
  | execute => exact .keep rfl ((ledger_append _).trans (List.append_nil _)) (.refl _ _)
  | _ => exact .keep rfl rfl (.refl _ _)

theorem Step.passage {h h' : Holder} {now : Nat} {a : Action} (hstep : h.Step now a h') :
    h.Passage a h' := by
  cases hstep with
  | begin operation => exact .keep rfl rfl (.append (isReleasing_firstStage operation))
  | createFails hc hfree hlife hcreate =>
    have hstate : h.lifecycle.state = .prepared := by rw [hlife]; rfl
    exact .vacate rfl hstate rfl (.inr (ledger_append _)) (.set hc rfl rfl)
  | create hc hfree hlife hcreate =>
    have hstate : h.lifecycle.state = .prepared := by rw [hlife]; rfl
    exact .create hstate rfl (ledger_append _) (.set hc rfl rfl)
  | resume hc hfree hlife hpending =>
    exact .goTo hc rfl rfl rfl (by rw [hlife]; rfl) rfl
  | start hc hfree hlife hpending hsource =>
    exact .goTo hc rfl rfl rfl (by rw [hlife]; rfl) rfl
  | accept hc hfree hlife => exact .goTo hc rfl rfl rfl (by rw [hlife]; rfl) rfl
  | acceptLast hc hfree hlife => exact .goTo hc rfl rfl rfl (by rw [hlife]; rfl) rfl
  | park hc hfree hlife => exact .goTo hc rfl rfl rfl (by rw [hlife]; rfl) rfl
  | closeClosed hc hfree hlife =>
    exact .keep rfl (ledger_afterClose rfl) (.set hc rfl (isReleasing_stage _))
  | closePrepared hc hfree hlife =>
    have hstate : h.lifecycle.state = .prepared := by rw [hlife]; rfl
    exact .vacate rfl hstate rfl (.inl (ledger_afterClose rfl))
      (.set hc rfl (isReleasing_stage _))
  | closeExecuted hc hfree hlife =>
    have hstate : h.lifecycle.state = .executed := by rw [hlife]; rfl
    exact .close rfl hc (.inl rfl) hstate rfl rfl rfl
  | abortJobs hc => exact .abort hc rfl rfl rfl
  | cancelTask hc =>
    refine .cancel hc rfl ((ledger_append _).trans ?_) rfl
    have hquiet (n : Nat) : (Event.connectionCancelled n).task? = none := rfl
    exact congrArg (h.ledger ++ .cancelled :: ·) (task?_connection hquiet _)
  | closeTask hc =>
    refine .release hc rfl ((ledger_append _).trans ?_) rfl
    have hquiet (n : Nat) : (Event.connectionClosed n).task? = none := rfl
    refine congrArg (h.ledger ++ .closed :: ·) ?_
    rw [List.filterMap_append, task?_connection hquiet, task?_events, List.append_nil]
  | reclaimPrepared hc hidle hlife =>
    have hstate : h.lifecycle.state = .prepared := by rw [hlife]; rfl
    exact .vacate rfl hstate rfl (.inl rfl) (.set hc rfl rfl)
  | reclaimExecuted hc hidle hlife =>
    have hstate : h.lifecycle.state = .executed := by rw [hlife]; rfl
    exact .close rfl hc (.inr rfl) hstate rfl rfl rfl
  | job hj hjob => exact hjob.passage
  | worker hw hworker => exact hworker.passage
  | refuse hc hlock => exact .reply hc rfl rfl rfl rfl
  | unlock hc => exact .reply hc rfl rfl rfl rfl
  | leave hc => exact .reply hc rfl rfl rfl rfl
  | abandonBegin hc => exact .reply hc rfl rfl rfl rfl
  | checkBusy hc hlock => exact .reply hc rfl rfl rfl rfl
  | busy hc hbusy => exact .reply hc rfl rfl rfl rfl
  | checkClosed hc hlife => exact .reply hc rfl rfl rfl rfl
  | checkFetching hc hlife hlock => exact .reply hc rfl rfl rfl rfl
  | keep hc hyoung => exact .reply hc rfl rfl rfl rfl
  | checkUnlock hc => exact .reply hc rfl rfl rfl rfl
  | statusState hc hfree => exact .reply hc rfl rfl rfl rfl
  | _ =>
    -- every other step moves one call on
    have hc := ‹h.calls[_]? = some _›
    exact .goTo hc rfl rfl rfl rfl rfl

/-! ## Phases along a run -/

/-- The lifecycle in a phase. -/
def Phase.state : Phase → TaskState
  | .prepared => .prepared
  | .executed => .executed
  | .vacant => .closed
  | .releasing .. => .closed
  | .released _ => .closed

theorem InPhase.state_eq {h : Holder} {p : Phase} (hphase : h.InPhase p) :
    h.lifecycle.state = p.state := by
  cases p <;> exact hphase.1

theorem isReleasing_of_releaseEvents {cancel : Bool} {s : Stage} {events : List TaskEvent}
    (h : releaseEvents cancel s = some events) : s.isReleasing = true := by
  cases s with
  | abortJobs e cancel' after => rfl
  | cancelTask after => rfl
  | closeTask after => rfl
  | _ => cases h

theorem InPhase.exists_releasing {h : Holder} {p : Phase} {c : Nat} {s : Stage}
    (hphase : h.InPhase p) (hc : h.calls[c]? = some s) (hs : s.isReleasing = true) :
    ∃ cancel, p = .releasing c cancel ∧ releaseEvents cancel s = some h.ledger := by
  have hfalse (hno : h.NoRelease) : False := by
    have hnot := hno c s hc
    rw [hs] at hnot
    cases hnot
  cases p with
  | prepared => exact (hfalse hphase.2.2).elim
  | executed => exact (hfalse hphase.2.2).elim
  | vacant => exact (hfalse hphase.2.2.2).elim
  | releasing c' cancel =>
    obtain ⟨-, ⟨s', hc', hevents⟩, honly⟩ := hphase
    have heq := honly c s hc hs
    subst heq
    cases Option.some.inj (hc'.symm.trans hc)
    exact ⟨cancel, rfl, hevents⟩
  | released cancel => exact (hfalse hphase.2.2).elim

section

variable {h h' : Holder} {p : Phase}

theorem InPhase.keep (hphase : h.InPhase p) (hstate : h'.lifecycle.state = h.lifecycle.state)
    (hledger : h'.ledger = h.ledger)
    (hsame : SameStages Stage.isReleasing h.calls h'.calls) : h'.InPhase p := by
  cases p with
  | prepared =>
    obtain ⟨hprepared, hempty, hno⟩ := hphase
    exact ⟨hstate.trans hprepared, hledger.trans hempty, hno.of_same hsame⟩
  | executed =>
    obtain ⟨hexecuted, hevents, hno⟩ := hphase
    exact ⟨hstate.trans hexecuted, hledger.trans hevents, hno.of_same hsame⟩
  | vacant =>
    obtain ⟨hclosed, hnot, hevents, hno⟩ := hphase
    refine ⟨hstate.trans hclosed, ?_, ?_, hno.of_same hsame⟩
    · rwa [hledger]
    · rwa [hledger]
  | releasing c cancel =>
    obtain ⟨hclosed, ⟨s, hc, hevents⟩, honly⟩ := hphase
    refine ⟨hstate.trans hclosed, ⟨s, ?_, ?_⟩, ?_⟩
    · exact (hsame c s (isReleasing_of_releaseEvents hevents)).mpr hc
    · rwa [hledger]
    · intro c' s' hc' hs'
      exact honly c' s' ((hsame c' s' hs').mp hc') hs'
  | released cancel =>
    obtain ⟨hclosed, hevents, hno⟩ := hphase
    exact ⟨hstate.trans hclosed, hledger.trans hevents, hno.of_same hsame⟩

theorem InPhase.vacate (hphase : h.InPhase .prepared) (hstate' : h'.lifecycle.state = .closed)
    (hledger : h'.ledger = h.ledger ∨ h'.ledger = h.ledger ++ [.creating])
    (hsame : SameStages Stage.isReleasing h.calls h'.calls) : h'.InPhase .vacant := by
  obtain ⟨-, hempty, hno⟩ := hphase
  rw [hempty, List.nil_append] at hledger
  refine ⟨hstate', ?_, hledger, hno.of_same hsame⟩
  rcases hledger with hledger | hledger <;> simp [hledger]

/-- The call that moves an executed holder to closed takes the task with it. -/
theorem InPhase.close (hphase : h.InPhase .executed) {c : Nat} {s : Stage} {e : Execution}
    {cancel : Bool} {after : AfterClose} (hc : h.calls[c]? = some s)
    (hstate' : h'.lifecycle.state = .closed) (hledger : h'.ledger = h.ledger)
    (hcalls : h'.calls = h.calls.set c (.abortJobs e cancel after)) :
    h'.InPhase (.releasing c cancel) := by
  obtain ⟨-, hevents, hno⟩ := hphase
  refine ⟨hstate', ⟨.abortJobs e cancel after, ?_, ?_⟩, ?_⟩
  · rw [hcalls, getElem?_set_of_some hc, if_pos rfl]
  · rw [hledger, hevents, releaseEvents, if_pos rfl]
  · intro c' s' hc' hs'
    rw [hcalls, getElem?_set_of_some hc] at hc'
    split at hc'
    · exact Eq.symm ‹_›
    · rw [hno c' s' hc'] at hs'
      cases hs'

/-- The releasing call goes on to its next stage. -/
theorem InPhase.advance {c : Nat} {cancel : Bool} {s s' : Stage}
    (hphase : h.InPhase (.releasing c cancel)) (hc : h.calls[c]? = some s)
    (hstate : h'.lifecycle.state = h.lifecycle.state)
    (hevents : releaseEvents cancel s' = some h'.ledger)
    (hcalls : h'.calls = h.calls.set c s') : h'.InPhase (.releasing c cancel) := by
  obtain ⟨hclosed, -, honly⟩ := hphase
  refine ⟨hstate.trans hclosed, ⟨s', ?_, hevents⟩, ?_⟩
  · rw [hcalls, getElem?_set_of_some hc, if_pos rfl]
  · intro c' t hc' ht
    rw [hcalls, getElem?_set_of_some hc] at hc'
    split at hc'
    · exact Eq.symm ‹_›
    · exact honly c' t hc' ht

/-- The releasing call has closed the task and is done with it. -/
theorem InPhase.release {c : Nat} {cancel : Bool} {s s' : Stage}
    (hphase : h.InPhase (.releasing c cancel)) (hc : h.calls[c]? = some s)
    (hs' : s'.isReleasing = false) (hstate : h'.lifecycle.state = h.lifecycle.state)
    (hevents : h'.ledger = [.creating, .created] ++ cancelEvents cancel ++ [.closed])
    (hcalls : h'.calls = h.calls.set c s') : h'.InPhase (.released cancel) := by
  obtain ⟨hclosed, -, honly⟩ := hphase
  refine ⟨hstate.trans hclosed, hevents, ?_⟩
  intro c' t hc'
  rw [hcalls, getElem?_set_of_some hc] at hc'
  split at hc'
  · rw [← Option.some.inj hc']
    exact hs'
  · rename_i hne
    cases ht : t.isReleasing with
    | false => rfl
    | true => exact absurd (honly c' t hc' ht).symm hne

/-- Every step leads from one phase to the next. -/
theorem InPhase.step {a : Action} (hphase : h.InPhase p) (hpass : h.Passage a h') :
    ∃ p', h'.InPhase p' ∧ p.Next p' := by
  have hpstate := hphase.state_eq
  cases hpass with
  | keep hstate hledger hsame => exact ⟨p, hphase.keep hstate hledger hsame, .same p⟩
  | create hstate hstate' hledger hsame =>
    rw [hstate] at hpstate
    cases p with
    | prepared =>
      obtain ⟨-, hempty, hno⟩ := hphase
      refine ⟨.executed, ⟨hstate', ?_, hno.of_same hsame⟩, .create⟩
      rw [hledger, hempty, List.nil_append]
    | _ => cases hpstate
  | vacate ha hstate hstate' hledger hsame =>
    rw [hstate] at hpstate
    cases p with
    | prepared => exact ⟨.vacant, hphase.vacate hstate' hledger hsame, .vacate⟩
    | _ => cases hpstate
  | close ha hc hs hstate hstate' hledger hcalls =>
    rw [hstate] at hpstate
    cases p with
    | executed => exact ⟨_, hphase.close hc hstate' hledger hcalls, .close _ _⟩
    | _ => cases hpstate
  | abort hc hstate hledger hcalls =>
    obtain ⟨cancel, rfl, hevents⟩ := hphase.exists_releasing hc rfl
    refine ⟨_, hphase.advance hc hstate ?_ hcalls, .same _⟩
    rw [releaseEvents] at hevents
    split at hevents
    · rename_i heq
      rw [hledger, ← Option.some.inj hevents, heq]
      cases cancel <;> rfl
    · cases hevents
  | cancel hc hstate hledger hcalls =>
    obtain ⟨cancel, rfl, hevents⟩ := hphase.exists_releasing hc rfl
    refine ⟨_, hphase.advance hc hstate ?_ hcalls, .same _⟩
    cases cancel with
    | true =>
      rw [hledger, ← Option.some.inj hevents]
      rfl
    | false => cases hevents
  | release hc hstate hledger hcalls =>
    obtain ⟨cancel, rfl, hevents⟩ := hphase.exists_releasing hc rfl
    refine ⟨_, hphase.release hc (isReleasing_stage _) hstate ?_ hcalls, .release _ _⟩
    rw [hledger, ← Option.some.inj hevents]

end

theorem inPhase_new (factory : Factory) (idleTimeout now : Nat) :
    (Holder.new factory idleTimeout now).InPhase .prepared :=
  ⟨rfl, rfl, fun _ _ hc => absurd hc (by simp [Holder.new])⟩

/-- Every run goes through the phases in order. -/
theorem run_phase {h h' : Holder} {p : Phase} {as : List (Nat × Action)} (hphase : h.InPhase p)
    (hrun : h.run as = some h') :
    ∃ p', h'.InPhase p' ∧ Relation.ReflTransGen Phase.Next p p' := by
  refine run_invariant (P := fun h => ∃ p', h.InPhase p' ∧ Relation.ReflTransGen Phase.Next p p')
    ?_ ⟨p, hphase, .refl⟩ hrun
  rintro h now a h' ⟨q, hq, hreach⟩ hstep
  obtain ⟨q', hq', hnext⟩ := hq.step hstep.passage
  exact ⟨q', hq', hreach.tail hnext⟩

theorem Phase.eq_vacant_of_reach {p : Phase} (h : Relation.ReflTransGen Phase.Next .vacant p) :
    p = .vacant := by
  induction h with
  | refl => rfl
  | tail _ hnext ih =>
    subst ih
    cases hnext
    rfl

theorem Phase.of_releasing_reach {p : Phase} {c : Nat} {cancel : Bool}
    (h : Relation.ReflTransGen Phase.Next (.releasing c cancel) p) :
    p = .releasing c cancel ∨ p = .released cancel := by
  induction h with
  | refl => exact .inl rfl
  | tail _ hnext ih =>
    rcases ih with rfl | rfl
    · cases hnext with
      | same => exact .inl rfl
      | release => exact .inr rfl
    · cases hnext
      exact .inr rfl

/-! ## Exhaustion -/

theorem cancelsResult_stage (after : AfterClose) : after.stage.cancelsResult = false := by
  cases after <;> rfl

theorem Step.cancelsResult {h h' : Holder} {now : Nat} {a : Action}
    (hinv : ∀ s ∈ h.calls, s.cancelsResult = false) (hstep : h.Step now a h') :
    ∀ s ∈ h'.calls, s.cancelsResult = false := by
  cases hstep with
  | begin operation =>
    refine forall_mem_append_singleton hinv ?_
    cases operation <;> rfl
  | abortJobs hc =>
    refine forall_mem_set hinv ?_
    split <;> rfl
  | closeClosed hc hfree hlife => exact forall_mem_set hinv (cancelsResult_stage _)
  | closePrepared hc hfree hlife => exact forall_mem_set hinv (cancelsResult_stage _)
  | closeTask hc => exact forall_mem_set hinv (cancelsResult_stage _)
  | job hj hjob => cases hjob <;> exact hinv
  | worker hw hworker => cases hworker <;> exact hinv
  | _ => exact forall_mem_set hinv rfl

/-! ## Creation and release -/

theorem Phase.Next.leads {p p' : Phase} (h : p.Next p') : p.state.Leads p'.state := by
  cases h with
  | same => cases p <;> simp [Phase.state, TaskState.Leads]
  | create => trivial
  | vacate => trivial
  | close c cancel => exact TaskState.noConfusion
  | release c cancel => rfl

theorem cancel_of_exhausts {cancel : Bool} {after : AfterClose}
    (hplain : (Stage.close cancel after).cancelsResult = false)
    (hexhausts : (Stage.close cancel after).exhausts = true) : cancel = false := by
  cases cancel with
  | false => rfl
  | true =>
    cases after with
    | fetch result =>
      cases result with
      | ok batch => cases hplain
      | error e => cases hexhausts
    | check => cases hexhausts
    | cancel => cases hexhausts

/-- The call that closes a holder owns its task from then on, if there is one. A call that has a
batch to return does not cancel it. -/
theorem InPhase.closing {h h' : Holder} {p : Phase} {a : Action} (hphase : h.InPhase p)
    (hplain : ∀ s ∈ h.calls, s.cancelsResult = false) (hpass : h.Passage a h')
    (hopen : h.lifecycle.state ≠ .closed) (hclosed : h'.lifecycle.state = .closed) :
    ∃ c, a = .call c ∧
      (h'.InPhase .vacant ∨
        ∃ s cancel, h.calls[c]? = some s ∧ h'.InPhase (.releasing c cancel) ∧
          (s.exhausts = true → cancel = false)) := by
  have hpstate := hphase.state_eq
  cases hpass with
  | keep hstate hledger hsame => exact absurd (hstate.symm.trans hclosed) hopen
  | create hstate hstate' hledger hsame =>
    rw [hstate'] at hclosed
    cases hclosed
  | vacate ha hstate hstate' hledger hsame =>
    rw [hstate] at hpstate
    cases p with
    | prepared => exact ⟨_, ha, .inl (hphase.vacate hstate' hledger hsame)⟩
    | _ => cases hpstate
  | close ha hc hs hstate hstate' hledger hcalls =>
    rw [hstate] at hpstate
    cases p with
    | executed =>
      refine ⟨_, ha, .inr ⟨_, _, hc, hphase.close hc hstate' hledger hcalls, ?_⟩⟩
      intro hexhausts
      rcases hs with rfl | rfl
      · exact cancel_of_exhausts (hplain _ (List.mem_of_getElem? hc)) hexhausts
      · cases hexhausts
    | _ => cases hpstate
  | abort hc hstate hledger hcalls => exact absurd (hstate.symm.trans hclosed) hopen
  | cancel hc hstate hledger hcalls => exact absurd (hstate.symm.trans hclosed) hopen
  | release hc hstate hledger hcalls => exact absurd (hstate.symm.trans hclosed) hopen

/-- What may have been done with a task, in this order. -/
def histories : List (List TaskEvent) :=
  [[], [.creating], [.creating, .created], [.creating, .created, .cancelled],
    [.creating, .created, .closed], [.creating, .created, .cancelled, .closed]]

theorem InPhase.ledger_mem {h : Holder} {p : Phase} (hphase : h.InPhase p) :
    h.ledger ∈ histories := by
  cases p with
  | prepared => simp [hphase.2.1, histories]
  | executed => simp [hphase.2.1, histories]
  | vacant => rcases hphase.2.2.1 with hledger | hledger <;> simp [hledger, histories]
  | releasing c cancel =>
    obtain ⟨-, ⟨s, -, hevents⟩, -⟩ := hphase
    cases s with
    | abortJobs e cancel' after =>
      rw [releaseEvents] at hevents
      split at hevents
      · simp [← Option.some.inj hevents, histories]
      · cases hevents
    | cancelTask after =>
      rw [releaseEvents] at hevents
      split at hevents
      · simp [← Option.some.inj hevents, histories]
      · cases hevents
    | closeTask after =>
      rw [← Option.some.inj hevents]
      cases cancel <;> decide
    | _ => cases hevents
  | released cancel =>
    rw [hphase.2.1]
    cases cancel <;> decide

/-- Nothing is done with a task after it is closed. -/
theorem eq_nil_of_mem_histories {l r : List TaskEvent} (h : l ++ .closed :: r ∈ histories) :
    r = [] := by
  have hlast : ∀ events ∈ histories, .closed ∉ events.dropLast := by decide
  have hnot := hlast _ h
  cases r with
  | nil => rfl
  | cons next rest =>
    refine absurd ?_ hnot
    rw [List.dropLast_append_of_ne_nil (List.cons_ne_nil _ _), List.dropLast_cons_cons]
    exact List.mem_append_right l (List.mem_cons_self ..)

/-- What becomes of the task of a holder that was closed without one. -/
theorem InPhase.after_vacant {h h' : Holder} {as : List (Nat × Action)}
    (hphase : h.InPhase .vacant) (hrun : h.run as = some h') :
    .created ∉ h'.ledger ∧ .cancelled ∉ h'.ledger := by
  obtain ⟨p, hp, hreach⟩ := run_phase hphase hrun
  cases Phase.eq_vacant_of_reach hreach
  obtain ⟨-, hcreated, hledger, -⟩ := hp
  refine ⟨hcreated, ?_⟩
  rcases hledger with hledger | hledger <;> simp [hledger]

/-- What becomes of the task that a call has to release. -/
theorem InPhase.after_releasing {h h' : Holder} {c : Nat} {cancel : Bool}
    {as : List (Nat × Action)} (hphase : h.InPhase (.releasing c cancel))
    (hrun : h.run as = some h') :
    (∀ reply, h'.calls[c]? = some (.returned reply) → h'.ledger.count .closed = 1) ∧
      (cancel = false → .cancelled ∉ h'.ledger) := by
  obtain ⟨p, hp, hreach⟩ := run_phase hphase hrun
  rcases Phase.of_releasing_reach hreach with rfl | rfl
  · obtain ⟨-, ⟨s, hc, hevents⟩, -⟩ := hp
    constructor
    · intro reply hreturned
      cases Option.some.inj (hc.symm.trans hreturned)
      cases hevents
    · rintro rfl
      cases s with
      | abortJobs e cancel after =>
        rw [releaseEvents] at hevents
        split at hevents
        · simp [← Option.some.inj hevents]
        · cases hevents
      | closeTask after =>
        rw [← Option.some.inj hevents]
        decide
      | _ => cases hevents
  · rw [hp.2.1]
    constructor
    · intro reply hreturned
      cases cancel <;> decide
    · rintro rfl
      decide

/-- Along every run of a holder, calls of all kinds racing in any order: the lifecycle moves from
prepared to executed to closed or from prepared to closed at once, and never back; the task is
made at most once; it is closed at most once and cancelled at most once, neither unless it was
made; nothing is done with it after the close. Only a call moves a holder to closed, and once
that call has returned, a task that was made has been closed; if the call was about to return the
last batch, the task is never cancelled. The final drop of a holder closes it as a cancel
does. -/
theorem task_closed_once {factory : Factory} {idleTimeout start now : Nat} {a : Action}
    {before after : List (Nat × Action)} {h h' h'' : Holder}
    (hbefore : (Holder.new factory idleTimeout start).run before = some h)
    (hstep : h.step now a = some h') (hafter : h'.run after = some h'') :
    h.lifecycle.state.Leads h'.lifecycle.state ∧
      h''.ledger.count .creating ≤ 1 ∧
      h''.ledger.count .closed ≤ h''.ledger.count .created ∧
      h''.ledger.count .created ≤ h''.ledger.count .creating ∧
      h''.ledger.count .cancelled ≤ h''.ledger.count .created ∧
      (∀ l r, h''.ledger = l ++ .closed :: r → r = []) ∧
      (h.lifecycle.state ≠ .closed → h'.lifecycle.state = .closed →
        ∃ c, a = .call c ∧
          (∀ reply, h''.calls[c]? = some (.returned reply) →
            .created ∈ h''.ledger → h''.ledger.count .closed = 1) ∧
          (∀ s, h.calls[c]? = some s → s.exhausts = true → .cancelled ∉ h''.ledger)) := by
  obtain ⟨p, hphase, -⟩ := run_phase (inPhase_new factory idleTimeout start) hbefore
  have hpass := (step_of_eq_some hstep).passage
  obtain ⟨p', hphase', hnext⟩ := hphase.step hpass
  obtain ⟨p'', hphase'', -⟩ := run_phase hphase' hafter
  have hledger := hphase''.ledger_mem
  have hcounts : ∀ events ∈ histories,
      events.count .creating ≤ 1 ∧ events.count .closed ≤ events.count .created ∧
        events.count .created ≤ events.count .creating ∧
        events.count .cancelled ≤ events.count .created := by
    decide
  obtain ⟨hcreating, hclosed, hcreated, hcancelled⟩ := hcounts _ hledger
  refine ⟨?_, hcreating, hclosed, hcreated, hcancelled, ?_, ?_⟩
  · rw [hphase.state_eq, hphase'.state_eq]
    exact hnext.leads
  · intro l r hsplit
    rw [hsplit] at hledger
    exact eq_nil_of_mem_histories hledger
  · intro hopen hclosed
    have hplain : ∀ s ∈ h.calls, s.cancelsResult = false :=
      run_invariant Step.cancelsResult (by simp [Holder.new]) hbefore
    obtain ⟨c, ha, howner⟩ := hphase.closing hplain hpass hopen hclosed
    refine ⟨c, ha, ?_⟩
    rcases howner with hvacant | ⟨s, cancel, hc, hreleasing, hquiet⟩
    · obtain ⟨hcreated, hcancelled⟩ := hvacant.after_vacant hafter
      exact ⟨fun _ _ hmem => absurd hmem hcreated, fun _ _ _ => hcancelled⟩
    · obtain ⟨hreturned, hcancelled⟩ := hreleasing.after_releasing hafter
      refine ⟨fun reply hreply _ => hreturned reply hreply, ?_⟩
      intro s' hc' hexhausts
      cases Option.some.inj (hc.symm.trans hc')
      exact hcancelled (hquiet hexhausts)

/-- A task of one row. -/
def oneRow : Factory :=
  .ofScript 5 [{ ScriptedRun.empty with rows := 1 }]

/-- A fetch of its only batch, up to the point where the fetch closes the holder. -/
def lastFetch : List (Nat × Action) :=
  [.begin (.fetch 10), .call 0, .call 0, .worker 0, .worker 0, .worker 0, .worker 0,
    .job 0, .job 0, .job 0, .call 0, .call 0].map fun a => (0, a)

/-- The rest of the fetch, with a cancel that comes too late. -/
def lateCancel : List (Nat × Action) :=
  [.begin .cancel, .call 1, .call 0, .call 0, .call 0, .call 0].map fun a => (0, a)

/-- The fetch that exhausts the results closes the task, and the cancel finds nothing to do. -/
theorem task_closed_once_lateCancel :
    ∃ h h' h'' : Holder,
      (Holder.new oneRow 60 0).run lastFetch = some h ∧
      h.step 0 (.call 0) = some h' ∧
      h'.run lateCancel = some h'' ∧
      h''.ledger.count .closed = 1 ∧
      .cancelled ∉ h''.ledger := by
  have hrun : ∃ h h' h'' : Holder,
      (Holder.new oneRow 60 0).run lastFetch = some h ∧
      h.step 0 (.call 0) = some h' ∧
      h'.run lateCancel = some h'' ∧
      h.lifecycle.state = .executed ∧
      h'.lifecycle.state = .closed ∧
      (∃ s, h.calls[0]? = some s ∧ s.exhausts = true) ∧
      (∃ reply, h''.calls[0]? = some (.returned reply)) ∧
      h''.ledger = [.creating, .created, .closed] :=
    ⟨_, _, _, rfl, rfl, rfl, rfl, rfl, ⟨_, rfl, rfl⟩, ⟨_, rfl⟩, rfl⟩
  obtain ⟨h, h', h'', hbefore, hstep, hafter, hexecuted, hclosed, ⟨s, hs, hlast⟩,
    ⟨reply, hreply⟩, hledger⟩ := hrun
  obtain ⟨-, -, -, -, -, -, hcloses⟩ := task_closed_once hbefore hstep hafter
  obtain ⟨c, hc, hreturned, hexhausts⟩ := hcloses (by simp [hexecuted]) hclosed
  cases hc
  refine ⟨h, h', h'', hbefore, hstep, hafter, ?_, hexhausts s hs hlast⟩
  exact hreturned reply hreply (by simp [hledger])

end Holder

end PagedQuery.Task
