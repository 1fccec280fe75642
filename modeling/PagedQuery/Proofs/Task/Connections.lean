import PagedQuery.Proofs.Task.Jobs
import PagedQuery.Proofs.Task.Pipeline

/-!
# Connections of a task

The computations of a task share one connection, which the first of them opens
and the close of the task closes. But the close does not stop a computation, and
leaves no mark for it: one that has yet to take its connection when the task is
closed opens another, which nobody closes.

* `Holder.openedConnections`, `Holder.closedConnections`: what a run opened and closed;
* `Holder.Books`: the connections opened so far are those closed and the one that is open;
* `Holder.connections_of_run`: connections up to the close of the task, and after it;
* `Holder.not_connection_closed`: a connection that stays open.
-/

namespace PagedQuery.Task

/-- Whether an attempt to connect opens a connection. Attempts are numbered, and a connection has
the number of the attempt that opened it. -/
def Factory.connects (factory : Factory) (attempt : Nat) : Bool :=
  match factory.backend.connect attempt with
  | .ok _ => true
  | .error _ => false

namespace Event

def isConnecting : Event → Bool
  | .connecting => true
  | _ => false

/-- The connection on which a statement is executed. -/
def execution? : Event → Option Nat
  | .executing connection => some connection
  | _ => none

def closedConnection? : Event → Option Nat
  | .connectionClosed connection => some connection
  | _ => none

/-- Events that neither open, use nor close a connection. -/
structure IsQuiet (e : Event) : Prop where
  connecting : e.isConnecting = false
  execution : e.execution? = none
  closed : e.closedConnection? = none

end Event

/-- Whether a computation has yet to take its connection, or to begin its statement. -/
def Worker.isPending : Worker → Bool
  | .started => true
  | .connected _ => true
  | _ => false

namespace Holder

/-! ## What a run does with connections -/

/-- The number of attempts to connect so far. -/
def attempts (h : Holder) : Nat :=
  h.log.countP Event.isConnecting

/-- The connections opened so far, in order. -/
def openedConnections (h : Holder) : List Nat :=
  (List.range h.attempts).filter h.factory.connects

/-- The connections closed so far, in order. -/
def closedConnections (h : Holder) : List Nat :=
  h.log.filterMap Event.closedConnection?

/-- The connections of the statements so far, in order. -/
def executions (h : Holder) : List Nat :=
  h.log.filterMap Event.execution?

/-- What a step does with the computations of a task and with its connection. -/
inductive Traffic (h h' : Holder) : Prop where
  /-- Nothing, unless that a computation starts. -/
  | quiet (events : List Event) (hsession : h'.session = h.session)
      (hworkers : h.workers <+: h'.workers) (hlog : h'.log = h.log ++ events)
      (hquiet : ∀ e ∈ events, e.IsQuiet)
  | worker {w : Nat} {worker : Worker} (hw : h.workers[w]? = some worker)
      (hstep : h.WorkerStep w worker h')
  /-- The task is closed, and with it the connection that is open. -/
  | close {c : Nat} {after : AfterClose} (hc : h.calls[c]? = some (.closeTask after))
      (hsession : h'.session = { h.session with connection := none })
      (hworkers : h'.workers = h.workers)
      (hlog : h'.log = h.log ++ Event.taskClosed ::
        (h.session.connection.toList.map Event.connectionClosed ++ after.events c))

section

variable {h h' : Holder}

/-- One quiet event. -/
theorem forall_mem_singleton_isQuiet {e : Event} (he : e.IsQuiet) : ∀ e' ∈ [e], e'.IsQuiet := by
  intro e' he'
  rw [List.mem_singleton.mp he']
  exact he

theorem isQuiet_replied (c : Nat) (r : Reply) : (Event.replied c r).IsQuiet := ⟨rfl, rfl, rfl⟩

theorem isQuiet_events (after : AfterClose) (c : Nat) : ∀ e ∈ after.events c, e.IsQuiet := by
  cases after with
  | fetch result => exact fun e he => absurd he List.not_mem_nil
  | check => exact fun e he => absurd he List.not_mem_nil
  | cancel => exact forall_mem_singleton_isQuiet (isQuiet_replied c _)

/-- The close of the task neither opens nor uses a connection. -/
theorem closeEvents_quiet (connection : Option Nat) (after : AfterClose) (c : Nat) :
    ∀ e ∈ Event.taskClosed ::
        (connection.toList.map Event.connectionClosed ++ after.events c),
      e.isConnecting = false ∧ e.execution? = none := by
  intro e he
  rcases List.mem_cons.mp he with rfl | he
  · exact ⟨rfl, rfl⟩
  rcases List.mem_append.mp he with he | he
  · obtain ⟨connection, -, rfl⟩ := List.mem_map.mp he
    exact ⟨rfl, rfl⟩
  · have hquiet := isQuiet_events after c e he
    exact ⟨hquiet.connecting, hquiet.execution⟩

/-- A step that neither logs anything nor touches the session and the computations. -/
theorem Traffic.silent (hsession : h'.session = h.session) (hworkers : h'.workers = h.workers)
    (hlog : h'.log = h.log) : h.Traffic h' := by
  refine .quiet [] hsession (hworkers ▸ List.prefix_refl _) ?_ ?_
  · rw [hlog, List.append_nil]
  · exact fun e he => absurd he List.not_mem_nil

theorem Traffic.reply {c : Nat} {r : Reply} (hsession : h'.session = h.session)
    (hworkers : h'.workers = h.workers) (hlog : h'.log = h.log ++ [.replied c r]) :
    h.Traffic h' :=
  .quiet _ hsession (hworkers ▸ List.prefix_refl _) hlog
    (forall_mem_singleton_isQuiet (isQuiet_replied c r))

theorem Traffic.afterClose {c : Nat} {after : AfterClose} (hsession : h'.session = h.session)
    (hworkers : h'.workers = h.workers) (hlog : h'.log = h.log ++ after.events c) :
    h.Traffic h' :=
  .quiet _ hsession (hworkers ▸ List.prefix_refl _) hlog (isQuiet_events after c)

theorem JobStep.traffic {j : Nat} {job : Job} (hstep : h.JobStep j job h') : h.Traffic h' := by
  cases hstep with
  | chain hcrash hnext =>
    refine .quiet [] rfl (List.prefix_append _ _) (List.append_nil _).symm ?_
    exact fun e he => absurd he List.not_mem_nil
  | _ => exact .silent rfl rfl rfl

theorem Step.traffic {now : Nat} {a : Action} (hstep : h.Step now a h') : h.Traffic h' := by
  cases hstep with
  | worker hw hworker => exact .worker hw hworker
  | closeTask hc => exact .close hc rfl rfl rfl
  | job hj hjob => exact hjob.traffic
  | createFails hc hfree hlife hcreate =>
    exact .quiet _ rfl (List.prefix_refl _) rfl (forall_mem_singleton_isQuiet ⟨rfl, rfl, rfl⟩)
  | create hc hfree hlife hcreate =>
    refine .quiet _ rfl (List.prefix_append _ _) rfl ?_
    simp only [List.mem_cons, List.not_mem_nil, or_false, forall_eq_or_imp, forall_eq]
    exact ⟨⟨rfl, rfl, rfl⟩, ⟨rfl, rfl, rfl⟩⟩
  | cancelTask hc =>
    refine .quiet _ rfl (List.prefix_refl _) rfl ?_
    intro e he
    rcases List.mem_cons.mp he with rfl | he
    · exact ⟨rfl, rfl, rfl⟩
    · obtain ⟨connection, -, rfl⟩ := List.mem_map.mp he
      exact ⟨rfl, rfl, rfl⟩
  | closeClosed hc hfree hlife => exact .afterClose rfl rfl rfl
  | closePrepared hc hfree hlife => exact .afterClose rfl rfl rfl
  | refuse hc hlock => exact .reply rfl rfl rfl
  | unlock hc => exact .reply rfl rfl rfl
  | leave hc => exact .reply rfl rfl rfl
  | abandonBegin hc => exact .reply rfl rfl rfl
  | checkBusy hc hlock => exact .reply rfl rfl rfl
  | busy hc hbusy => exact .reply rfl rfl rfl
  | checkClosed hc hlife => exact .reply rfl rfl rfl
  | checkFetching hc hlife hlock => exact .reply rfl rfl rfl
  | keep hc hyoung => exact .reply rfl rfl rfl
  | checkUnlock hc => exact .reply rfl rfl rfl
  | statusState hc hfree => exact .reply rfl rfl rfl
  | _ => exact .silent rfl rfl rfl

/-! ## The books -/

/-- All attempts are counted. Of the connections opened so far those in `past` have been closed,
and the other one, if there is one, is open. -/
structure Books (past : List Nat) (h : Holder) : Prop where
  attempts : h.attempts = h.session.attempts
  closed : h.closedConnections = past
  opened : h.openedConnections = past ++ h.session.connection.toList

theorem attempts_append {events : List Event} (hlog : h'.log = h.log ++ events)
    (hnone : ∀ e ∈ events, e.isConnecting = false) : h'.attempts = h.attempts := by
  have hzero : events.countP Event.isConnecting = 0 := by
    rw [List.countP_eq_zero]
    intro e he
    rw [hnone e he]
    exact Bool.false_ne_true
  rw [attempts, hlog, List.countP_append, hzero, Nat.add_zero, attempts]

theorem closedConnections_append {events : List Event} (hlog : h'.log = h.log ++ events)
    (hnone : ∀ e ∈ events, e.closedConnection? = none) :
    h'.closedConnections = h.closedConnections := by
  rw [closedConnections, hlog, List.filterMap_append, List.filterMap_eq_nil_iff.mpr hnone,
    List.append_nil, closedConnections]

theorem executions_append {events : List Event} (hlog : h'.log = h.log ++ events)
    (hnone : ∀ e ∈ events, e.execution? = none) : h'.executions = h.executions := by
  rw [executions, hlog, List.filterMap_append, List.filterMap_eq_nil_iff.mpr hnone,
    List.append_nil, executions]

theorem attempts_connecting (hlog : h'.log = h.log ++ [.connecting]) :
    h'.attempts = h.attempts + 1 := by
  rw [attempts, hlog, List.countP_append]
  rfl

theorem executions_executing {connection : Nat}
    (hlog : h'.log = h.log ++ [.executing connection]) :
    h'.executions = h.executions ++ [connection] := by
  rw [executions, hlog, List.filterMap_append]
  rfl

theorem openedConnections_eq (hfactory : h'.factory = h.factory)
    (hattempts : h'.attempts = h.attempts) : h'.openedConnections = h.openedConnections := by
  rw [openedConnections, hfactory, hattempts, openedConnections]

/-- One more attempt opens one more connection, or none. -/
theorem openedConnections_succ (hfactory : h'.factory = h.factory)
    (hattempts : h'.attempts = h.attempts + 1) :
    h'.openedConnections =
      h.openedConnections ++ if h.factory.connects h.attempts then [h.attempts] else [] := by
  rw [openedConnections, hfactory, hattempts, List.range_succ, List.filter_append,
    openedConnections]
  refine congrArg _ ?_
  split <;> simp_all

variable {past : List Nat}

/-- Events that neither open nor close a connection are not entered. -/
theorem Books.frame {events : List Event} (hbooks : h.Books past)
    (hfactory : h'.factory = h.factory) (hattempts : h'.session.attempts = h.session.attempts)
    (hconnection : h'.session.connection = h.session.connection)
    (hlog : h'.log = h.log ++ events) (hopens : ∀ e ∈ events, e.isConnecting = false)
    (hcloses : ∀ e ∈ events, e.closedConnection? = none) : h'.Books past where
  attempts := by rw [attempts_append hlog hopens, hattempts, hbooks.attempts]
  closed := by rw [closedConnections_append hlog hcloses, hbooks.closed]
  opened := by
    rw [openedConnections_eq hfactory (attempts_append hlog hopens), hconnection, hbooks.opened]

/-- An attempt to connect is entered. -/
theorem Books.attempt (hbooks : h.Books past) (hfactory : h'.factory = h.factory)
    (hnone : h.session.connection = none)
    (hattempts : h'.session.attempts = h.session.attempts + 1)
    (hconnection : h'.session.connection =
      if h.factory.connects h.session.attempts then some h.session.attempts else none)
    (hlog : h'.log = h.log ++ [.connecting]) : h'.Books past := by
  have hone := attempts_connecting hlog
  constructor
  · exact hone.trans (hbooks.attempts ▸ hattempts.symm)
  · rw [closedConnections_append hlog (by simp [Event.closedConnection?]), hbooks.closed]
  · rw [openedConnections_succ hfactory hone, hbooks.opened, hnone, hconnection, hbooks.attempts]
    split <;> simp

theorem Books.workerStep {w : Nat} {worker : Worker} (hbooks : h.Books past)
    (hstep : h.WorkerStep w worker h') : h'.Books past := by
  cases hstep with
  | connect hopen hconnect =>
    have hconnects : h.factory.connects h.session.attempts = true := by
      simp [Factory.connects, hconnect]
    refine hbooks.attempt rfl hopen rfl ?_ rfl
    rw [if_pos hconnects]
    rfl
  | connectFails hopen hconnect =>
    have hconnects : h.factory.connects h.session.attempts = false := by
      simp [Factory.connects, hconnect]
    refine hbooks.attempt rfl hopen rfl ?_ rfl
    rw [hconnects, if_neg Bool.false_ne_true]
    exact hopen
  | execute =>
    refine hbooks.frame rfl rfl rfl rfl ?_ ?_
    · simp [Event.isConnecting]
    · simp [Event.closedConnection?]
  | _ => exact ⟨hbooks.attempts, hbooks.closed, hbooks.opened⟩

/-- The close of the task closes the one connection that has been opened. -/
theorem Books.close {c : Nat} {after : AfterClose} (hbooks : h.Books [])
    (hfactory : h'.factory = h.factory)
    (hsession : h'.session = { h.session with connection := none })
    (hlog : h'.log = h.log ++ Event.taskClosed ::
      (h.session.connection.toList.map Event.connectionClosed ++ after.events c)) :
    h'.Books h.openedConnections := by
  have hattempts : h'.attempts = h.attempts :=
    attempts_append hlog fun e he => (closeEvents_quiet _ after c e he).1
  constructor
  · rw [hattempts, hbooks.attempts, hsession]
  · have hafter : (after.events c).filterMap Event.closedConnection? = [] := by
      rw [List.filterMap_eq_nil_iff]
      exact fun e he => (isQuiet_events after c e he).closed
    have hself : (Event.closedConnection? ∘ Event.connectionClosed) = some := rfl
    have hfirst : h.log.filterMap Event.closedConnection? = [] := hbooks.closed
    rw [closedConnections, hlog, List.filterMap_append, hfirst, List.filterMap_cons,
      List.filterMap_append, List.filterMap_map, hafter, hself, List.filterMap_some, hbooks.opened]
    simp [Event.closedConnection?]
  · rw [openedConnections_eq hfactory hattempts, hsession]
    exact (List.append_nil _).symm

/-- No step closes a connection but the close of the task. -/
theorem Books.step {now : Nat} {a : Action} (hbooks : h.Books past) (hstep : h.Step now a h') :
    h'.Books past ∨
      ∃ (c : Nat) (after : AfterClose),
        h.calls[c]? = some (.closeTask after) ∧ Event.taskClosed ∈ h'.log := by
  have hfactory := hstep.factory_eq
  cases hstep.traffic with
  | quiet events hsession hworkers hlog hquiet =>
    refine .inl (hbooks.frame hfactory (by rw [hsession]) (by rw [hsession]) hlog ?_ ?_)
    · exact fun e he => (hquiet e he).connecting
    · exact fun e he => (hquiet e he).closed
  | worker hw hworker => exact .inl (hbooks.workerStep hworker)
  | close hc hsession hworkers hlog =>
    refine .inr ⟨_, _, hc, ?_⟩
    rw [hlog]
    exact List.mem_append_right _ List.mem_cons_self

/-! ## Up to the close of the task -/

/-- No connection is closed before the task is. -/
structure Attached (h : Holder) : Prop where
  sound : h.Sound
  claimed : h.JobsClaimed
  books : .closed ∉ h.ledger → h.Books []

theorem ledger_of_closeTask {c : Nat} {after : AfterClose} (hsound : h.Sound)
    (hc : h.calls[c]? = some (.closeTask after)) : .closed ∉ h.ledger := by
  obtain ⟨p, hphase⟩ := hsound.phase
  obtain ⟨cancel, rfl, hevents⟩ := hphase.exists_releasing hc rfl
  rw [← Option.some.inj hevents]
  cases cancel <;> decide

/-- The ledger of the task is only added to. -/
theorem Passage.ledger_subset {a : Action} (hpass : h.Passage a h') : h.ledger ⊆ h'.ledger := by
  cases hpass with
  | keep hstate hledger hsame => exact hledger ▸ List.Subset.refl _
  | create hstate hstate' hledger hsame => exact hledger ▸ List.subset_append_left _ _
  | vacate ha hstate hstate' hledger hsame =>
    rcases hledger with hledger | hledger
    · exact hledger ▸ List.Subset.refl _
    · exact hledger ▸ List.subset_append_left _ _
  | close ha hc hs hstate hstate' hledger hcalls => exact hledger ▸ List.Subset.refl _
  | abort hc hstate hledger hcalls => exact hledger ▸ List.Subset.refl _
  | cancel hc hstate hledger hcalls => exact hledger ▸ List.subset_append_left _ _
  | release hc hstate hledger hcalls => exact hledger ▸ List.subset_append_left _ _

theorem Attached.step {now : Nat} {a : Action} (hattached : h.Attached)
    (hstep : h.Step now a h') : h'.Attached where
  sound := hattached.sound.step hstep
  claimed := hstep.jobsClaimed hattached.sound hattached.claimed
  books := by
    intro hnot
    have hbefore : .closed ∉ h.ledger := fun hmem => hnot (hstep.passage.ledger_subset hmem)
    rcases (hattached.books hbefore).step hstep with hbooks | ⟨c, after, -, hclosed⟩
    · exact hbooks
    · have hmem : TaskEvent.closed ∈ h'.ledger := List.mem_filterMap.mpr ⟨_, hclosed, rfl⟩
      exact absurd hmem hnot

/-- The task has been closed, and with it the connections in `past`. -/
structure Released (past : List Nat) (h : Holder) : Prop where
  settled : h.Settled
  phase : ∃ cancel, h.InPhase (.released cancel)
  books : h.Books past

/-- What the step does that closes the task. -/
theorem step_closeTask {now c : Nat} {after : AfterClose}
    (hc : h.calls[c]? = some (.closeTask after)) (hstep : h.step now (.call c) = some h') :
    h'.calls = h.calls.set c after.stage ∧ h'.workers = h.workers ∧
      h'.session = { h.session with connection := none } ∧
      h'.log = h.log ++ Event.taskClosed ::
        (h.session.connection.toList.map Event.connectionClosed ++ after.events c) := by
  rw [step, hc, Option.bind_some, callStep, closeTask_eq, afterClose_eq] at hstep
  cases hstep
  refine ⟨rfl, rfl, rfl, ?_⟩
  simp [goTo]

theorem Attached.release {now c : Nat} {after : AfterClose} (hattached : h.Attached)
    (hc : h.calls[c]? = some (.closeTask after)) (hstep : h.step now (.call c) = some h') :
    h'.Released h.openedConnections := by
  obtain ⟨hsound, hclaimed, hbooks⟩ := hattached
  obtain ⟨hcalls, -, hsession, hlog⟩ := step_closeTask hc hstep
  have hlisted := step_of_eq_some hstep
  have hopen := hbooks (ledger_of_closeTask hsound hc)
  have hsettled := hsound.settled_of_closeTask hclaimed hc
  refine ⟨(hsettled.step hlisted).1, ?_, hopen.close hlisted.factory_eq hsession hlog⟩
  obtain ⟨p, hphase⟩ := hsound.phase
  obtain ⟨cancel, rfl, -⟩ := hphase.exists_releasing hc rfl
  obtain ⟨p', hphase', hnext⟩ := hphase.step hlisted.passage
  cases hnext with
  | same =>
    -- the call has left the stages of a release
    obtain ⟨-, ⟨s, hs, hevents⟩, -⟩ := hphase'
    rw [hcalls, getElem?_set_of_some hc, if_pos rfl] at hs
    have hreleasing := isReleasing_of_releaseEvents hevents
    rw [← Option.some.inj hs, isReleasing_stage] at hreleasing
    cases hreleasing
  | release => exact ⟨cancel, hphase'⟩

theorem Released.step {now : Nat} {a : Action} (hreleased : h.Released past)
    (hstep : h.Step now a h') : h'.Released past := by
  obtain ⟨hsettled, ⟨cancel, hphase⟩, hbooks⟩ := hreleased
  obtain ⟨p', hphase', hnext⟩ := hphase.step hstep.passage
  refine ⟨(hsettled.step hstep).1, ?_, ?_⟩
  · cases hnext
    exact ⟨cancel, hphase'⟩
  · rcases hbooks.step hstep with hbooks' | ⟨c, after, hc, -⟩
    · exact hbooks'
    · cases hphase.2.2 c _ hc

theorem Released.run {as : List (Nat × Action)} (hreleased : h.Released past)
    (hrun : h.run as = some h') : h'.Released past :=
  run_invariant Released.step hreleased hrun

/-! ## Computations that are pending at the close -/

/-- Computations that have begun their statement do nothing more with connections. -/
theorem WorkerStep.of_not_pending {w : Nat} {worker : Worker} (hstep : h.WorkerStep w worker h')
    (hpending : worker.isPending = false) :
    h'.attempts = h.attempts ∧ h'.executions = h.executions ∧
      ∃ next, next.isPending = false ∧ h'.workers = h.workers.set w next := by
  cases hstep with
  | executed hexecute => exact ⟨rfl, rfl, _, rfl, rfl⟩
  | executeFails hexecute => exact ⟨rfl, rfl, _, rfl, rfl⟩
  | opened => exact ⟨rfl, rfl, _, rfl, rfl⟩
  | _ => cases hpending

/-- No computation has yet to connect or to begin its statement, and what has been attempted and
executed is what was in the state `h₀`. -/
structure Still (h₀ h : Holder) : Prop where
  attempts : h.attempts = h₀.attempts
  executions : h.executions = h₀.executions
  workers : ∀ worker ∈ h.workers, worker.isPending = false

theorem Still.step {h₀ : Holder} {now : Nat} {a : Action} (hstill : Still h₀ h)
    (hreleased : h.Released past) (hstep : h.Step now a h') : Still h₀ h' := by
  obtain ⟨hattempts, hexecutions, hworkers⟩ := hstill
  have hlength := (hreleased.settled.step hstep).2
  obtain ⟨cancel, hphase⟩ := hreleased.phase
  cases hstep.traffic with
  | quiet events hsession hprefix hlog hquiet =>
    refine ⟨?_, ?_, ?_⟩
    · rw [attempts_append hlog fun e he => (hquiet e he).connecting, hattempts]
    · rw [executions_append hlog fun e he => (hquiet e he).execution, hexecutions]
    · rw [← hprefix.eq_of_length hlength.symm]
      exact hworkers
  | worker hw hworker =>
    obtain ⟨hattempts', hexecutions', next, hnext, hset⟩ :=
      hworker.of_not_pending (hworkers _ (List.mem_of_getElem? hw))
    refine ⟨hattempts'.trans hattempts, hexecutions'.trans hexecutions, ?_⟩
    rw [hset]
    exact forall_mem_set hworkers hnext
  | close hc => cases hphase.2.2 _ _ hc

/-- What the computation `w` has done since the state `h₀`, in which no connection was open: it
has attempted to connect or begun a statement, or it has yet to do so. -/
structure Since (h₀ : Holder) (w : Nat) (h : Holder) : Prop where
  attempts : h₀.attempts ≤ h.attempts
  executions : h₀.executions.length ≤ h.executions.length
  connection : h.attempts = h₀.attempts → h.session.connection = none
  pending : (∃ worker, h.workers[w]? = some worker ∧ worker.isPending = true) ∨
    h₀.attempts < h.attempts ∨ h₀.executions.length < h.executions.length

section

variable {h₀ : Holder} {w i : Nat}

theorem Since.attempt (hsince : Since h₀ w h) (hlog : h'.log = h.log ++ [.connecting]) :
    Since h₀ w h' := by
  have hone := attempts_connecting hlog
  have hsame : h'.executions = h.executions :=
    executions_append hlog (by simp [Event.execution?])
  have hbefore := hsince.attempts
  refine ⟨by omega, by rw [hsame]; exact hsince.executions, ?_, .inr (.inl (by omega))⟩
  intro heq
  omega

theorem Since.execute {connection : Nat} (hsince : Since h₀ w h)
    (hlog : h'.log = h.log ++ [.executing connection])
    (hconnection : h'.session.connection = h.session.connection) : Since h₀ w h' := by
  have hsame : h'.attempts = h.attempts := attempts_append hlog (by simp [Event.isConnecting])
  have hmore : h'.executions.length = h.executions.length + 1 := by
    rw [executions_executing hlog, List.length_append, List.length_singleton]
  have hbefore := hsince.executions
  refine ⟨by rw [hsame]; exact hsince.attempts, by omega, ?_, .inr (.inr (by omega))⟩
  rw [hsame, hconnection]
  exact hsince.connection

/-- Nothing is logged, and the computation has acted or is where it was. -/
theorem Since.keep (hsince : Since h₀ w h) (hlog : h'.log = h.log)
    (hconnection : h'.session.connection = h.session.connection)
    (hpending : (∃ worker, h'.workers[w]? = some worker ∧ worker.isPending = true) ∨
      h₀.attempts < h.attempts ∨ h₀.executions.length < h.executions.length) :
    Since h₀ w h' := by
  have hattempts : h'.attempts = h.attempts := by
    rw [Holder.attempts, hlog, Holder.attempts]
  have hexecutions : h'.executions = h.executions := by
    rw [Holder.executions, hlog, Holder.executions]
  refine ⟨?_, ?_, ?_, ?_⟩
  · rw [hattempts]
    exact hsince.attempts
  · rw [hexecutions]
    exact hsince.executions
  · rw [hattempts, hconnection]
    exact hsince.connection
  · rw [hattempts, hexecutions]
    exact hpending

/-- Another computation, one that is not pending, goes on. -/
theorem Since.pending_set {worker next : Worker} (hsince : Since h₀ w h)
    (hi : h.workers[i]? = some worker) (hdone : worker.isPending = false) :
    (∃ worker, (h.workers.set i next)[w]? = some worker ∧ worker.isPending = true) ∨
      h₀.attempts < h.attempts ∨ h₀.executions.length < h.executions.length := by
  rcases hsince.pending with ⟨waiting, hw, hwaiting⟩ | hacted
  · refine .inl ⟨waiting, ?_, hwaiting⟩
    have hne : i ≠ w := by
      rintro rfl
      cases Option.some.inj (hi.symm.trans hw)
      rw [hdone] at hwaiting
      cases hwaiting
    rw [List.getElem?_set_ne hne, hw]
  · exact .inr hacted

/-- A computation that goes on does not take back what has been done. -/
theorem Since.workerStep {worker : Worker} (hsince : Since h₀ w h)
    (hi : h.workers[i]? = some worker) (hstep : h.WorkerStep i worker h') : Since h₀ w h' := by
  cases hstep with
  | reuse hopen =>
    -- the connection has been opened since
    have hmore : h₀.attempts < h.attempts := by
      rcases Nat.lt_or_eq_of_le hsince.attempts with hlt | heq
      · exact hlt
      · rw [hsince.connection heq.symm] at hopen
        cases hopen
    exact hsince.keep rfl rfl (.inr (.inl hmore))
  | connect hopen hconnect => exact hsince.attempt rfl
  | connectFails hopen hconnect => exact hsince.attempt rfl
  | execute => exact hsince.execute rfl rfl
  | executed hexecute => exact hsince.keep rfl rfl (hsince.pending_set hi rfl)
  | executeFails hexecute => exact hsince.keep rfl rfl (hsince.pending_set hi rfl)
  | opened => exact hsince.keep rfl rfl (hsince.pending_set hi rfl)

theorem Since.step {now : Nat} {a : Action} (hsince : Since h₀ w h)
    (hreleased : h.Released past) (hstep : h.Step now a h') : Since h₀ w h' := by
  have hlength := (hreleased.settled.step hstep).2
  obtain ⟨cancel, hphase⟩ := hreleased.phase
  cases hstep.traffic with
  | quiet events hsession hprefix hlog hquiet =>
    have hattempts := attempts_append hlog fun e he => (hquiet e he).connecting
    have hexecutions := executions_append hlog fun e he => (hquiet e he).execution
    have hworkers := hprefix.eq_of_length hlength.symm
    constructor
    · rw [hattempts]
      exact hsince.attempts
    · rw [hexecutions]
      exact hsince.executions
    · rw [hattempts, hsession]
      exact hsince.connection
    · rw [hattempts, hexecutions, ← hworkers]
      exact hsince.pending
  | worker hw hworker => exact hsince.workerStep hw hworker
  | close hc => cases hphase.2.2 _ _ hc

end

/-- As long as no task has been made there are no jobs and no computations. -/
structure Unmade (h : Holder) : Prop where
  state : h.lifecycle.state ≠ .executed
  jobs : h.jobs = []
  workers : h.workers = []
  attempts : h.attempts = 0

theorem jobs_abort_nil (hjobs : h.jobs = []) (j : Nat) : (h.abort j).jobs = [] := by
  simp [abort, setJob, hjobs]

theorem jobs_abort?_nil (hjobs : h.jobs = []) (j? : Option Nat) : (h.abort? j?).jobs = [] := by
  cases j? with
  | none => exact hjobs
  | some j => exact jobs_abort_nil hjobs j

theorem Unmade.step {now : Nat} {a : Action} (hunmade : h.Unmade) (hstep : h.Step now a h')
    (hnot : .created ∉ h'.ledger) : h'.Unmade := by
  obtain ⟨hstate, hjobs, hworkers, hattempts⟩ := hunmade
  have hopen {e : Execution} (hlife : h.lifecycle = .executed e) : False := by
    rw [hlife] at hstate
    exact hstate rfl
  have hsame : h'.attempts = 0 := by
    cases hstep.traffic with
    | quiet events hsession hprefix hlog hquiet =>
      rw [attempts_append hlog fun e he => (hquiet e he).connecting, hattempts]
    | worker hw hworker =>
      rw [hworkers] at hw
      cases hw
    | close hc hsession hsame hlog =>
      rw [attempts_append hlog fun e he => (closeEvents_quiet _ _ _ e he).1, hattempts]
  suffices h'.lifecycle.state ≠ .executed ∧ h'.jobs = [] ∧ h'.workers = [] from
    ⟨this.1, this.2.1, this.2.2, hsame⟩
  cases hstep with
  | create hc hfree hlife hcreate =>
    refine (hnot (List.mem_filterMap.mpr ⟨Event.created, ?_, rfl⟩)).elim
    simp [goTo]
  | job hj hjob =>
    rw [hjobs] at hj
    cases hj
  | worker hw hworker =>
    rw [hworkers] at hw
    cases hw
  -- the steps of an executed task
  | resume hc hfree hlife hpending => exact (hopen hlife).elim
  | start hc hfree hlife hpending hsource => exact (hopen hlife).elim
  | accept hc hfree hlife => exact (hopen hlife).elim
  | acceptLast hc hfree hlife => exact (hopen hlife).elim
  | park hc hfree hlife => exact (hopen hlife).elim
  -- the aborts find nothing
  | expire hc hnow => exact ⟨hstate, jobs_abort_nil hjobs _, hworkers⟩
  | parkClosed hc hfree hlife => exact ⟨hstate, jobs_abort_nil hjobs _, hworkers⟩
  | @abortJobs c e cancel after hc =>
    refine ⟨hstate, jobs_abort?_nil (jobs_abort?_nil hjobs _) _, ?_⟩
    exact hworkers
  | createFails hc hfree hlife hcreate =>
    exact ⟨by simp [goTo, Lifecycle.state], hjobs, hworkers⟩
  | closePrepared hc hfree hlife => exact ⟨by simp [goTo, Lifecycle.state], hjobs, hworkers⟩
  | closeExecuted hc hfree hlife => exact (hopen hlife).elim
  | reclaimPrepared hc hidle hlife => exact ⟨by simp [goTo, Lifecycle.state], hjobs, hworkers⟩
  | reclaimExecuted hc hidle hlife => exact (hopen hlife).elim
  | _ => exact ⟨hstate, hjobs, hworkers⟩

end

end Holder

end PagedQuery.Task
