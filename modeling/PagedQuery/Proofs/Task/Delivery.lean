import PagedQuery.Proofs.Task.Pipeline

/-!
# Delivery of batches

As long as nothing fails and nobody cancels, times out or reclaims the task,
fetches return the stream of the task: whatever order they come in, and
whichever of them are dropped while they wait, no row is lost, repeated or
moved.

* `Holder.returned`, `Holder.accepted`: the batches that fetches have returned, or will return;
* `Holder.interrupts`: the actions that end a task before its stream ends;
* `Holder.Flow`: how far the stream of a task has been accepted;
* `Holder.returned_batches`: the batches that fetches return.
-/

namespace PagedQuery.Task

/-! ## Batches under way -/

def AfterClose.batch? : AfterClose → Option Batch
  | .fetch result => result.toOption
  | _ => none

/-- The accepted batch that a call is about to return. -/
def Stage.batch? : Stage → Option Batch
  | .fetchTouch result => result.toOption
  | .fetchUnlock result => result.toOption
  | .close _ after => after.batch?
  | .abortJobs _ _ after => after.batch?
  | .cancelTask after => after.batch?
  | .closeTask after => after.batch?
  | _ => none

/-- The batch that a call returns. -/
def Event.batch? : Event → Option Batch
  | .replied _ (.fetched result) => result.toOption
  | _ => none

theorem AfterClose.batch?_stage (after : AfterClose) : after.stage.batch? = after.batch? := by
  cases after <;> rfl

theorem AfterClose.filterMap_events (c : Nat) (after : AfterClose) :
    (after.events c).filterMap Event.batch? = [] := by
  cases after <;> rfl

theorem Event.filterMap_cancelled (connection? : Option Nat) :
    (Event.taskCancelled :: connection?.toList.map Event.connectionCancelled).filterMap
      Event.batch? = [] := by
  cases connection? <;> rfl

theorem Event.filterMap_closed (connection? : Option Nat) (c : Nat) (after : AfterClose) :
    (Event.taskClosed :: (connection?.toList.map Event.connectionClosed ++
      after.events c)).filterMap Event.batch? = [] := by
  cases connection? <;> exact after.filterMap_events c

theorem AfterClose.holdsFetchLock_of_batch? {after : AfterClose} {batch : Batch}
    (hbatch : after.batch? = some batch) : after.holdsFetchLock = true := by
  cases after with
  | fetch result => rfl
  | check => cases hbatch
  | cancel => cases hbatch

theorem Stage.holdsFetchLock_of_batch? {s : Stage} {batch : Batch} (hs : s.batch? = some batch) :
    s.holdsFetchLock = true := by
  cases s with
  | fetchTouch result => rfl
  | fetchUnlock result => rfl
  | close cancel after => exact AfterClose.holdsFetchLock_of_batch? hs
  | abortJobs e cancel after => exact AfterClose.holdsFetchLock_of_batch? hs
  | cancelTask after => exact AfterClose.holdsFetchLock_of_batch? hs
  | closeTask after => exact AfterClose.holdsFetchLock_of_batch? hs
  | _ => cases hs

theorem Stage.holdsBatch_of_settles {s : Stage} (hs : s.settles = true) : s.holdsBatch = true := by
  cases s with
  | close cancel after =>
    cases after with
    | fetch result => rfl
    | _ => cases hs
  | fetchFinish batch next => rfl
  | _ => cases hs

theorem Stage.settles_eq_false {s : Stage} (hs : s.holdsBatch = false) : s.settles = false := by
  cases hsettles : s.settles with
  | false => rfl
  | true => rw [← hs, Stage.holdsBatch_of_settles hsettles]

namespace Holder

/-- The batches that fetches have returned, in the order in which they did. -/
def returned (h : Holder) : List Batch :=
  h.log.filterMap Event.batch?

/-- The batches that were returned, and the accepted one that is about to be. -/
def accepted (h : Holder) : List Batch :=
  h.returned ++ h.calls.filterMap Stage.batch?

section

variable {h h' : Holder} {c : Nat} {s s' : Stage}

/-- Only the call that holds the fetch lock has an accepted batch. -/
theorem Locked.filterMap_set (hlocked : h.Locked) (hc : h.calls[c]? = some s)
    (hs : s.holdsFetchLock = true) (s' : Stage) :
    (h.calls.set c s').filterMap Stage.batch? = s'.batch?.toList := by
  refine filterMap_set_of_others (List.getElem?_eq_some_iff.mp hc).1 ?_
  intro c' t hc' hne
  cases ht : t.batch? with
  | none => rfl
  | some batch =>
    exact absurd (hlocked.fetch.unique hc' (Stage.holdsFetchLock_of_batch? ht) hc hs) hne

theorem Locked.filterMap_calls (hlocked : h.Locked) (hc : h.calls[c]? = some s)
    (hs : s.holdsFetchLock = true) : h.calls.filterMap Stage.batch? = s.batch?.toList :=
  (filterMap_set_of_eq hc rfl).symm.trans (hlocked.filterMap_set hc hs s)

/-- A call goes on, and has the accepted batch as before or none. -/
theorem accepted_eq_of_log {events : List Event} (hc : h.calls[c]? = some s)
    (hcalls : h'.calls = h.calls.set c s') (hbatch : s'.batch? = s.batch?)
    (hlog : h'.log = h.log ++ events) (hevents : events.filterMap Event.batch? = []) :
    h'.accepted = h.accepted := by
  rw [accepted, accepted, returned, returned, hlog, hcalls, filterMap_set_of_eq hc hbatch,
    List.filterMap_append, hevents, List.append_nil]

theorem accepted_eq (hc : h.calls[c]? = some s) (hcalls : h'.calls = h.calls.set c s')
    (hbatch : s'.batch? = s.batch?) (hlog : h'.log = h.log) : h'.accepted = h.accepted :=
  accepted_eq_of_log hc hcalls hbatch (hlog.trans (List.append_nil _).symm) List.filterMap_nil

theorem WorkerStep.accepted_eq {w : Nat} {worker : Worker} (hstep : h.WorkerStep w worker h') :
    h'.accepted = h.accepted := by
  cases hstep <;> simp [accepted, returned, setWorker, Event.batch?]

/-- The call that holds the fetch lock accepts a batch. -/
theorem accepted_accept (hlocked : h.Locked) (hc : h.calls[c]? = some s)
    (hcalls : h'.calls = h.calls.set c s') (hs : s.holdsFetchLock = true)
    (hbatch : s.batch? = none) {batch : Batch} (hbatch' : s'.batch? = some batch)
    (hlog : h'.log = h.log) : h'.accepted = h.accepted ++ [batch] := by
  rw [accepted, accepted, returned, returned, hlog, hcalls, hlocked.filterMap_set hc hs,
    hlocked.filterMap_calls hc hs, hbatch, hbatch']
  simp

/-- A call returns the batch that it has accepted. -/
theorem accepted_unlock (hlocked : h.Locked) {result : FetchResult}
    (hc : h.calls[c]? = some (.fetchUnlock result)) :
    ({ h with fetchLock := none }.reply c (.fetched result)).accepted = h.accepted := by
  have hcalls := hlocked.filterMap_calls hc rfl
  have hcalls' := hlocked.filterMap_set hc rfl (.returned (.fetched result))
  change (h.log ++ [Event.replied c (.fetched result)]).filterMap Event.batch? ++
    (h.calls.set c (.returned (.fetched result))).filterMap Stage.batch? = _
  rw [accepted, returned, hcalls, hcalls', List.filterMap_append, List.append_assoc]
  cases result <;> rfl

end

/-! ## The flow of batches -/

/-- Whether an action ends the task before its stream ends: the deadline of a fetch passes, a
cancel closes the holder, or an idle check reclaims it. -/
def interrupts (now : Nat) (h : Holder) : Action → Bool
  | .expire _ => true
  | .call c =>
    match h.calls[c]? with
    | some (.close _ (.fetch _)) => false
    | some (.close ..) => true
    | some .checkDecide => Decidable.decide (h.idleTimeout ≤ now - h.lastTouched)
    | _ => false
  | _ => false

/-- How far the stream of a task has been accepted. -/
inductive Flow (h : Holder) : Prop where
  /-- Not at all: nothing has been asked for. -/
  | prepared (hlife : h.lifecycle = .prepared) (hsession : h.session = Session.empty)
      (hworkers : h.workers = []) (hjobs : h.jobs = []) (haccepted : h.accepted = [])
      (hnone : ∀ s ∈ h.calls, s.holdsBatch = false)
  /-- Up to the place of the next batch. -/
  | running {e : Execution} {p : Position} (hlife : h.lifecycle = .executed e)
      (hserves : h.factory.Serves h.accepted (some p)) (hpipe : h.Pipeline e p)
  /-- To its end, and the call with the last batch is about to close the holder. -/
  | closing {e : Execution} {c : Nat} {cancel : Bool} {result : FetchResult}
      (hlife : h.lifecycle = .executed e) (hserves : h.factory.Serves h.accepted none)
      (hc : h.calls[c]? = some (.close cancel (.fetch result)))
  /-- To its end, and the holder is closed. -/
  | closed (hlife : h.lifecycle = .closed) (hserves : h.factory.Serves h.accepted none)
      (hnone : ∀ s ∈ h.calls, s.holdsBatch = false)

/-- The step leaves alone what the task works on, and accepts nothing. -/
structure SameWork (h h' : Holder) : Prop where
  factory : h'.factory = h.factory
  session : h'.session = h.session
  workers : h'.workers = h.workers
  jobs : h'.jobs = h.jobs
  accepted : h'.accepted = h.accepted

namespace Flow

variable {h h' : Holder} {e : Execution} {c : Nat} {s : Stage}

theorem serves_of_eq {batches : List Batch} {next : Option Position}
    (hserves : h.factory.Serves batches next) (hfactory : h'.factory = h.factory)
    (haccepted : h'.accepted = batches) : h'.factory.Serves h'.accepted next := by
  rw [hfactory, haccepted]
  exact hserves

/-- A step that has nothing to do with the next batch. -/
theorem frame (hflow : h.Flow) (hwork : SameWork h h') (hlife' : h'.lifecycle = h.lifecycle)
    (hcalls : SameStages Stage.holdsBatch h.calls h'.calls) : h'.Flow := by
  obtain ⟨hfactory, hsession, hworkers, hjobs, haccepted⟩ := hwork
  cases hflow with
  | prepared hlife hsession' hworkers' hjobs' haccepted' hnone =>
    exact .prepared (hlife'.trans hlife) (hsession.trans hsession') (hworkers.trans hworkers')
      (hjobs.trans hjobs') (haccepted.trans haccepted') (hcalls.forall_mem_eq_false hnone)
  | running hlife hserves hpipe =>
    exact .running (hlife'.trans hlife) (serves_of_eq hserves hfactory haccepted)
      (hpipe.frame hfactory hsession hworkers hjobs rfl rfl
        (hcalls.mono fun _ => Stage.holdsBatch_of_settles))
  | closing hlife hserves hc =>
    exact .closing (hlife'.trans hlife) (serves_of_eq hserves hfactory haccepted)
      ((hcalls _ _ rfl).mpr hc)
  | closed hlife hserves hnone =>
    exact .closed (hlife'.trans hlife) (serves_of_eq hserves hfactory haccepted)
      (hcalls.forall_mem_eq_false hnone)

/-- Once the holder is closed, nothing matters but what is still to be returned. -/
theorem stays_closed (hflow : h.Flow) (hlife : h.lifecycle.state = .closed)
    (hfactory : h'.factory = h.factory) (hlife' : h'.lifecycle = h.lifecycle)
    (haccepted : h'.accepted = h.accepted)
    (hcalls : SameStages Stage.holdsBatch h.calls h'.calls) : h'.Flow := by
  cases hflow with
  | prepared hprepared =>
    rw [hprepared] at hlife
    cases hlife
  | running hexecuted =>
    rw [hexecuted] at hlife
    cases hlife
  | closing hexecuted =>
    rw [hexecuted] at hlife
    cases hlife
  | closed hclosed hserves hnone =>
    exact .closed (hlife'.trans hclosed) (serves_of_eq hserves hfactory haccepted)
      (hcalls.forall_mem_eq_false hnone)

/-- A holder is open as long as a call has the next batch. -/
theorem executed_of_holdsBatch (hflow : h.Flow) (hc : h.calls[c]? = some s)
    (hs : s.holdsBatch = true) : ∃ e, h.lifecycle = .executed e := by
  have hmem := List.mem_of_getElem? hc
  cases hflow with
  | prepared hlife hsession hworkers hjobs haccepted hnone =>
    rw [hnone s hmem] at hs
    cases hs
  | running hlife => exact ⟨_, hlife⟩
  | closing hlife => exact ⟨_, hlife⟩
  | closed hlife hserves hnone =>
    rw [hnone s hmem] at hs
    cases hs

/-- A call that works on a batch of an open task works at the place of the next one. -/
theorem at_place (hflow : h.Flow) (hlocked : h.Locked) (hlife : h.lifecycle = .executed e)
    (hc : h.calls[c]? = some s) (hs : s.holdsFetchLock = true)
    (hnot : ∀ cancel result, s ≠ .close cancel (.fetch result)) :
    ∃ p, h.factory.Serves h.accepted (some p) ∧ h.Pipeline e p := by
  cases hflow with
  | prepared hprepared => cases hlife.symm.trans hprepared
  | running hexecuted hserves hpipe =>
    cases hlife.symm.trans hexecuted
    exact ⟨_, hserves, hpipe⟩
  | @closing _ c' _ _ hexecuted hserves hclosing =>
    cases hlocked.fetch.unique hc hs hclosing rfl
    exact absurd (Option.some.inj (hc.symm.trans hclosing)) (hnot _ _)
  | closed hclosed => cases hlife.symm.trans hclosed

theorem none_holdsBatch_of_closed (hflow : h.Flow) (hlife : h.lifecycle = .closed) :
    ∀ s ∈ h.calls, s.holdsBatch = false := by
  cases hflow with
  | prepared hprepared => cases hlife.symm.trans hprepared
  | running hexecuted => cases hlife.symm.trans hexecuted
  | closing hexecuted => cases hlife.symm.trans hexecuted
  | closed hclosed hserves hnone => exact hnone

/-- What is accepted is cut off from the front of the stream. -/
theorem serves (hflow : h.Flow) (hreliable : h.factory.Reliable) :
    ∃ next, h.factory.Serves h.accepted next := by
  cases hflow with
  | prepared hlife hsession hworkers hjobs haccepted hnone =>
    obtain ⟨c, hexecute⟩ := hreliable.first
    rw [haccepted]
    exact ⟨_, .start hexecute⟩
  | running hlife hserves hpipe => exact ⟨_, hserves⟩
  | closing hlife hserves hc => exact ⟨_, hserves⟩
  | closed hlife hserves hnone => exact ⟨_, hserves⟩

/-! ### Steps -/

/-- The task is made. -/
theorem create {now timeout : Nat} (hflow : h.Flow) (hreliable : h.factory.Reliable)
    (hc : h.calls[c]? = some (.fetchStart timeout)) (hlife : h.lifecycle = .prepared) :
    ({ h with
        lastTouched := now
        workers := h.workers ++ [Worker.started]
        jobs := h.jobs ++ [Job.waiting h.workers.length]
        lifecycle := .executed
          { source := none, batchJob := some h.jobs.length, pending := none }
        log := h.log ++ [Event.creating, Event.created] }.goTo c
      (.fetchWait h.jobs.length (now + timeout))).Flow := by
  cases hflow with
  | prepared _ hsession hworkers hjobs haccepted hnone =>
    obtain ⟨cursor, hexecute⟩ := hreliable.first
    rw [hjobs, hworkers]
    have hserves := Factory.Serves.start hexecute
    rw [← haccepted] at hserves
    refine .running rfl (serves_of_eq hserves rfl (accepted_eq_of_log hc rfl rfl rfl rfl))
      (.of_create hexecute hsession rfl rfl (forall_mem_set ?_ rfl))
    exact fun s hs => Stage.settles_eq_false (hnone s hs)
  | running hexecuted => cases hlife.symm.trans hexecuted
  | closing hexecuted => cases hlife.symm.trans hexecuted
  | closed hclosed => cases hlife.symm.trans hclosed

/-- A step of a call that leaves the next batch where it is in the stream. -/
theorem goes_on {p : Position} {e' : Execution} (hserves : h.factory.Serves h.accepted (some p))
    (hpipe : h.Pipeline e p) (hwork : SameWork h h') (hlife : h'.lifecycle = .executed e')
    (hsource : e'.source = e.source) (hjob : e'.batchJob = e.batchJob)
    (hcalls : SameStages Stage.settles h.calls h'.calls) : h'.Flow := by
  obtain ⟨hfactory, hsession, hworkers, hjobs, haccepted⟩ := hwork
  exact .running hlife (serves_of_eq hserves hfactory haccepted)
    (hpipe.frame hfactory hsession hworkers hjobs hsource hjob hcalls)

/-- The batch job of an open task goes on at the place of the next batch, and what it gives is
that batch. -/
theorem job_result (hflow : h.Flow) (hsound : h.Sound) {j deadline : Nat} {result : JobResult}
    (hc : h.calls[c]? = some (.fetchWait j deadline))
    (hjob : h.jobs[j]? = some (.finished result)) :
    ∃ e p batch next, h.lifecycle = .executed e ∧ h.factory.Serves h.accepted (some p) ∧
      h.Pipeline e p ∧ e.batchJob = some j ∧ result = .ready batch next := by
  obtain ⟨e, hlife⟩ := hflow.executed_of_holdsBatch hc rfl
  obtain ⟨p, hserves, hpipe⟩ := hflow.at_place hsound.locked hlife hc rfl nofun
  obtain ⟨-, -, hwaits⟩ := hsound.custody_held hlife hc rfl
  obtain ⟨hbatch, -⟩ := hwaits j rfl
  obtain ⟨job, hjob', hat⟩ := hpipe.job j hbatch
  cases Option.some.inj (hjob.symm.trans hjob')
  cases result with
  | ready batch next => exact ⟨e, p, batch, next, hlife, hserves, hpipe, hbatch, rfl⟩
  | failed cause => exact hat.elim
  | crashed => exact hat.elim

/-- The batch of a call is accepted: the next one is at the place where it leaves off. -/
theorem accept {batch : Batch} {source : RowSource} (hflow : h.Flow) (hsound : h.Sound)
    (hc : h.calls[c]? = some (.fetchFinish batch (some source)))
    (hlife : h.lifecycle = .executed e) :
    ({ h with lifecycle := .executed { e with batchJob := none, source := some source } }.goTo c
      (.fetchTouch (.ok batch))).Flow := by
  obtain ⟨p, hserves, hpipe⟩ := hflow.at_place hsound.locked hlife hc rfl nofun
  have hmem := List.mem_of_getElem? hc
  cases hpipe.outcomeAt hmem with
  | next hfollows hsource =>
    have hnone : ∀ s ∈ h.calls.set c (.fetchTouch (.ok batch)), s.holdsBatch = false :=
      hsound.none_holdsBatch_set hc rfl rfl
    exact .running rfl
      (serves_of_eq (hserves.batch hfollows) rfl
        (accepted_accept hsound.locked hc rfl rfl rfl rfl rfl))
      (hpipe.accept hmem hsource rfl rfl rfl rfl
        fun s hs => Stage.settles_eq_false (hnone s hs))

/-- The last batch is accepted, and the call is about to close the holder. -/
theorem acceptLast {batch : Batch} (hflow : h.Flow) (hsound : h.Sound)
    (hc : h.calls[c]? = some (.fetchFinish batch none)) (hlife : h.lifecycle = .executed e) :
    ({ h with lifecycle := .executed { e with batchJob := none } }.goTo c
      (.close false (.fetch (.ok batch)))).Flow := by
  obtain ⟨p, hserves, hpipe⟩ := hflow.at_place hsound.locked hlife hc rfl nofun
  cases hpipe.outcomeAt (List.mem_of_getElem? hc) with
  | last hfollows hcomputed =>
    have hclosing : (h.calls.set c (.close false (.fetch (.ok batch))))[c]? =
        some (.close false (.fetch (.ok batch))) := by
      rw [getElem?_set_of_some hc, if_pos rfl]
    exact .closing rfl
      (serves_of_eq (hserves.batch hfollows) rfl
        (accepted_accept hsound.locked hc rfl rfl rfl rfl rfl))
      hclosing

/-- A call closes the open holder after the last batch. -/
theorem close {cancel : Bool} {result : FetchResult} (hflow : h.Flow) (hsound : h.Sound)
    (hc : h.calls[c]? = some (.close cancel (.fetch result)))
    (hlife : h.lifecycle = .executed e) :
    ({ h with lifecycle := .closed }.goTo c (.abortJobs e cancel (.fetch result))).Flow := by
  cases hflow with
  | prepared hprepared => cases hlife.symm.trans hprepared
  | running hexecuted hserves hpipe =>
    exact absurd (List.mem_of_getElem? hc) (hpipe.notClosing cancel result)
  | closing hexecuted hserves hclosing =>
    exact .closed rfl (serves_of_eq hserves rfl (accepted_eq hc rfl rfl rfl))
      (hsound.none_holdsBatch_set hc rfl rfl)
  | closed hclosed => cases hlife.symm.trans hclosed

/-- A job or a computation of a task goes on. -/
theorem job {j : Nat} {job : Job} (hflow : h.Flow) (hsound : h.Sound)
    (hreliable : h.factory.Reliable) (hj : h.jobs[j]? = some job) (hstep : h.JobStep j job h') :
    h'.Flow := by
  have hframe : h'.factory = h.factory ∧ h'.lifecycle = h.lifecycle ∧ h'.calls = h.calls ∧
      h'.accepted = h.accepted := by
    cases hstep <;> exact ⟨rfl, rfl, rfl, rfl⟩
  obtain ⟨hfactory, hlife', hcalls, haccepted⟩ := hframe
  cases hflow with
  | prepared hlife hsession hworkers hjobs =>
    rw [hjobs] at hj
    cases hj
  | running hlife hserves hpipe =>
    obtain ⟨hyields, -⟩ := hserves.yields_and_rows hreliable
    have hsource := (hsound.custody _ hlife).source_eq_none
    exact .running (hlife'.trans hlife) (serves_of_eq hserves hfactory haccepted)
      (hpipe.job_step hreliable hyields hsource hj hstep)
  | closing hlife hserves hc =>
    exact .closing (hlife'.trans hlife) (serves_of_eq hserves hfactory haccepted) (hcalls ▸ hc)
  | closed hlife hserves hnone =>
    exact .closed (hlife'.trans hlife) (serves_of_eq hserves hfactory haccepted) (hcalls ▸ hnone)

theorem worker {w : Nat} {worker : Worker} (hflow : h.Flow) (hreliable : h.factory.Reliable)
    (hw : h.workers[w]? = some worker) (hstep : h.WorkerStep w worker h') : h'.Flow := by
  have hframe : h'.factory = h.factory ∧ h'.lifecycle = h.lifecycle ∧ h'.calls = h.calls := by
    cases hstep <;> exact ⟨rfl, rfl, rfl⟩
  obtain ⟨hfactory, hlife', hcalls⟩ := hframe
  have haccepted := hstep.accepted_eq
  cases hflow with
  | prepared hlife hsession hworkers hjobs =>
    rw [hworkers] at hw
    cases hw
  | running hlife hserves hpipe =>
    exact .running (hlife'.trans hlife) (serves_of_eq hserves hfactory haccepted)
      (hpipe.worker_step hreliable hw hstep)
  | closing hlife hserves hc =>
    exact .closing (hlife'.trans hlife) (serves_of_eq hserves hfactory haccepted) (hcalls ▸ hc)
  | closed hlife hserves hnone =>
    exact .closed (hlife'.trans hlife) (serves_of_eq hserves hfactory haccepted) (hcalls ▸ hnone)

end Flow

section

variable {h h' : Holder} {now : Nat} {a : Action}

/-- Where nothing fails and nothing interrupts the task, every step keeps to the stream. -/
theorem Step.flow (hreliable : h.factory.Reliable) (hsound : h.Sound) (hflow : h.Flow)
    (hcalm : h.interrupts now a = false) (hstep : h.Step now a h') : h'.Flow := by
  cases hstep with
  | begin operation =>
    refine hflow.frame ⟨rfl, rfl, rfl, rfl, ?_⟩ rfl (.append ?_)
    · rw [accepted, List.filterMap_append]
      cases operation <;> exact congrArg _ (List.append_nil _)
    · cases operation <;> rfl
  -- the first batch
  | createFails hc hfree hlife hcreate => cases hreliable.create.symm.trans hcreate
  | create hc hfree hlife hcreate => exact hflow.create hreliable hc hlife
  -- the next batch is taken from where it is
  | resume hc hfree hlife hpending =>
    obtain ⟨p, hserves, hpipe⟩ := hflow.at_place hsound.locked hlife hc rfl nofun
    exact .goes_on hserves hpipe ⟨rfl, rfl, rfl, rfl, accepted_eq hc rfl rfl rfl⟩ rfl rfl rfl
      (.set hc rfl rfl)
  | start hc hfree hlife hpending hsource =>
    obtain ⟨p, hserves, hpipe⟩ := hflow.at_place hsound.locked hlife hc rfl nofun
    have hjob := (hsound.custody _ hlife).batchJob_eq_none hsource
    exact .running rfl (Flow.serves_of_eq hserves rfl (accepted_eq hc rfl rfl rfl))
      (hpipe.start hsource hjob rfl rfl rfl rfl (.set hc rfl rfl))
  -- it is received, parked or accepted
  | receive hc hjob =>
    obtain ⟨e, p, batch, next, hlife, hserves, hpipe, hbatch, heq⟩ :=
      hflow.job_result hsound hc hjob
    exact .running hlife (Flow.serves_of_eq hserves rfl (accepted_eq hc rfl rfl rfl))
      (hpipe.receive hbatch hjob)
  | receiveFailed hc hjob =>
    obtain ⟨e, p, batch, next, -, -, -, -, heq⟩ := hflow.job_result hsound hc hjob
    cases heq
  | receiveCrashed hc hjob =>
    obtain ⟨e, p, batch, next, -, -, -, -, heq⟩ := hflow.job_result hsound hc hjob
    cases heq
  | receiveAborted hc hjob =>
    obtain ⟨e, hlife⟩ := hflow.executed_of_holdsBatch hc rfl
    obtain ⟨-, -, hwaits⟩ := hsound.custody_held hlife hc rfl
    obtain ⟨-, job, hjob', hlive⟩ := hwaits _ rfl
    cases Option.some.inj (hjob.symm.trans hjob')
    cases hlive
  | abandonWait hc =>
    obtain ⟨e, hlife⟩ := hflow.executed_of_holdsBatch hc rfl
    obtain ⟨p, hserves, hpipe⟩ := hflow.at_place hsound.locked hlife hc rfl nofun
    exact .goes_on hserves hpipe ⟨rfl, rfl, rfl, rfl, accepted_eq hc rfl rfl rfl⟩ hlife rfl rfl
      (.set hc rfl rfl)
  | park hc hfree hlife =>
    obtain ⟨p, hserves, hpipe⟩ := hflow.at_place hsound.locked hlife hc rfl nofun
    exact .goes_on hserves hpipe ⟨rfl, rfl, rfl, rfl, accepted_eq hc rfl rfl rfl⟩ rfl rfl rfl
      (.set hc rfl rfl)
  | accept hc hfree hlife => exact hflow.accept hsound hc hlife
  | acceptLast hc hfree hlife => exact hflow.acceptLast hsound hc hlife
  | unlock hc =>
    exact hflow.frame ⟨rfl, rfl, rfl, rfl, accepted_unlock hsound.locked hc⟩ rfl
      (.set hc rfl rfl)
  -- it is not lost to a holder that was closed meanwhile
  | lose hc hfree hlife =>
    obtain ⟨e, hexecuted⟩ := hflow.executed_of_holdsBatch hc rfl
    exact absurd (congrArg Lifecycle.state hexecuted) hlife
  | parkClosed hc hfree hlife =>
    obtain ⟨e, hexecuted⟩ := hflow.executed_of_holdsBatch hc rfl
    exact absurd (congrArg Lifecycle.state hexecuted) hlife
  -- only the call with the last batch closes the holder
  | @closeExecuted c cancel after e hc hfree hlife =>
    cases after with
    | fetch result => exact hflow.close hsound hc hlife
    | check => simp [interrupts, hc] at hcalm
    | cancel => simp [interrupts, hc] at hcalm
  | @closePrepared c cancel after hc hfree hlife =>
    cases after with
    | fetch result =>
      obtain ⟨e, hexecuted⟩ := hflow.executed_of_holdsBatch hc rfl
      cases hlife.symm.trans hexecuted
    | check => simp [interrupts, hc] at hcalm
    | cancel => simp [interrupts, hc] at hcalm
  | @closeClosed c cancel after hc hfree hlife =>
    have hnone := hflow.none_holdsBatch_of_closed hlife _ (List.mem_of_getElem? hc)
    exact hflow.frame
      ⟨rfl, rfl, rfl, rfl,
        accepted_eq_of_log hc rfl after.batch?_stage rfl (after.filterMap_events c)⟩
      rfl (.set hc hnone after.holdsBatch_stage)
  | expire hc hnow => cases hcalm
  | reclaimPrepared hc hidle hlife => simp [interrupts, hc, hidle] at hcalm
  | reclaimExecuted hc hidle hlife => simp [interrupts, hc, hidle] at hcalm
  -- what a closed holder had is released
  | @abortJobs c e cancel after hc =>
    refine hflow.stays_closed (hsound.state_eq_of_releasing hc rfl) rfl rfl ?_ ?_
    · exact accepted_eq hc rfl (by cases cancel <;> rfl) rfl
    · exact .set hc rfl (by cases cancel <;> rfl)
  | cancelTask hc =>
    exact hflow.stays_closed (hsound.state_eq_of_releasing hc rfl) rfl rfl
      (accepted_eq_of_log hc rfl rfl rfl (Event.filterMap_cancelled _)) (.set hc rfl rfl)
  | @closeTask c after hc =>
    exact hflow.stays_closed (hsound.state_eq_of_releasing hc rfl) rfl rfl
      (accepted_eq_of_log hc rfl after.batch?_stage rfl (Event.filterMap_closed _ c after))
      (.set hc rfl after.holdsBatch_stage)
  -- work in progress
  | job hj hjob => exact hflow.job hsound hreliable hj hjob
  | worker hw hworker => exact hflow.worker hreliable hw hworker
  -- calls that reply without a batch
  | refuse hc | leave hc | abandonBegin hc | checkBusy hc | busy hc | checkClosed hc
  | checkFetching hc | keep hc | checkUnlock hc | statusState hc =>
    exact hflow.frame ⟨rfl, rfl, rfl, rfl, accepted_eq_of_log hc rfl rfl rfl rfl⟩ rfl
      (.set hc rfl rfl)
  | _ =>
    -- no other call has to do with the next batch
    have hc := ‹h.calls[_]? = some _›
    exact hflow.frame ⟨rfl, rfl, rfl, rfl, accepted_eq hc rfl rfl rfl⟩ rfl (.set hc rfl rfl)

end

/-! ## What fetches return -/

/-- A holder that keeps to the stream of a task. -/
structure OnStream (f : Factory) (h : Holder) : Prop where
  factory : h.factory = f
  sound : h.Sound
  flow : h.Flow

section

variable {f : Factory} {h : Holder} {idleTimeout start : Nat} {as : List (Nat × Action)}

theorem onStream_new (f : Factory) (idleTimeout now : Nat) :
    (Holder.new f idleTimeout now).OnStream f where
  factory := rfl
  sound := sound_new f idleTimeout now
  flow := .prepared rfl rfl rfl rfl rfl fun _ hs => nomatch hs

theorem calm_of_checkAlong
    (hcheck : h.checkAlong (fun now h a => !h.interrupts now a) as = true) :
    h.Along (fun now h a => h.interrupts now a = false) as :=
  along_of_checkAlong (fun _ _ _ hquiet => Bool.not_eq_true' _ |>.mp hquiet) hcheck

theorem run_onStream (hreliable : f.Reliable)
    (hcalm : (Holder.new f idleTimeout start).Along (fun now h a => h.interrupts now a = false) as)
    (hrun : (Holder.new f idleTimeout start).run as = some h) : h.OnStream f := by
  refine run_invariant_along ?_ (onStream_new f idleTimeout start) hcalm hrun
  intro h now a h' hon hquiet hstep
  obtain ⟨rfl, hsound, hflow⟩ := hon
  exact ⟨hstep.factory_eq, hsound.step hstep, hstep.flow hreliable hsound hflow hquiet⟩

/-- What fetches of a task return as long as nothing fails and nothing interrupts it, in every run:
however many of them overlap, and whichever are dropped while they wait. Their rows, one batch
after the other, are those that the stream begins with, and every batch is as large as it can be
and says whether its cursor is the last one. -/
theorem returned_batches (hreliable : f.Reliable)
    (hcalm : (Holder.new f idleTimeout start).Along (fun now h a => h.interrupts now a = false) as)
    (hrun : (Holder.new f idleTimeout start).run as = some h) :
    f.StreamPrefix (h.returned.flatMap Batch.rows) ∧
      (∀ whole, f.WholeStream whole → h.returned.flatMap Batch.rows <+: whole) ∧
      ∀ l batch r, h.returned = l ++ batch :: r → f.Delivers l batch r := by
  obtain ⟨rfl, -, hflow⟩ := run_onStream hreliable hcalm hrun
  obtain ⟨next, hserves⟩ := hflow.serves hreliable
  obtain ⟨next', hreturned⟩ := hserves.left_of_append hreliable
  have hbegins := hreturned.streamPrefix hreliable
  refine ⟨hbegins, fun whole hwhole => hbegins.isPrefix hreliable hwhole, ?_⟩
  intro l batch r hsplit
  exact hreturned.delivers hreliable hsplit

end

/-- A task of two cursors. -/
def twoCursors : Factory :=
  .ofScript 2
    [{ ScriptedRun.empty with rows := 3, next := true }, { ScriptedRun.empty with rows := 1 }]

/-- Its first fetch is dropped while it waits, and another one is refused. Three more take all
its rows. -/
def droppedFetch : List (Nat × Action) :=
  [.begin (.fetch 10), .call 0, .call 0, .begin (.fetch 10), .call 1,
    .worker 0, .worker 0, .worker 0, .worker 0, .abandon 0, .call 0, .call 0,
    .begin (.fetch 10), .call 2, .call 2, .job 0, .job 0, .job 0,
    .call 2, .call 2, .call 2, .call 2,
    .begin (.fetch 10), .call 3, .call 3, .job 1, .job 1, .call 3, .call 3, .call 3, .call 3,
    .begin (.fetch 10), .call 4, .call 4, .worker 1, .worker 1, .worker 1, .worker 1,
    .job 2, .job 2, .job 2, .call 4, .call 4, .call 4, .call 4, .call 4, .call 4,
    .call 4].map fun a => (0, a)

theorem returned_batches_droppedFetch :
    ∃ h : Holder,
      (Holder.new twoCursors 60 0).run droppedFetch = some h ∧
      h.returned.length = 3 ∧
      twoCursors.WholeStream (h.returned.flatMap Batch.rows) := by
  have hrun : ∃ h first second last,
      (Holder.new twoCursors 60 0).run droppedFetch = some h ∧
      h.returned = [first, second, last] ∧
      last.hasNext = false :=
    ⟨_, _, _, _, rfl, rfl, rfl⟩
  obtain ⟨h, first, second, last, hrun, hreturned, hnext⟩ := hrun
  have hreliable : twoCursors.Reliable := Factory.reliable_ofScript (by decide)
  have hcheck : (Holder.new twoCursors 60 0).checkAlong (fun now h a => !h.interrupts now a)
      droppedFetch = true := rfl
  obtain ⟨-, -, hdelivers⟩ := returned_batches hreliable (calm_of_checkAlong hcheck) hrun
  refine ⟨h, hrun, by rw [hreturned]; rfl, ?_⟩
  rw [hreturned]
  exact (hdelivers [first, second] last [] hreturned).whole hnext

/-- A task whose first cursor promises another one, which has no rows. -/
def emptyTail : Factory :=
  .ofScript 5 [{ ScriptedRun.empty with rows := 2, next := true }]

/-- Its first fetch. -/
def firstFetch : List (Nat × Action) :=
  [.begin (.fetch 10), .call 0, .call 0, .worker 0, .worker 0, .worker 0, .worker 0,
    .job 0, .job 0, .job 0, .call 0, .call 0, .call 0, .call 0].map fun a => (0, a)

/-- A batch may say that there are more although it completes the stream: the next cursor is
promised before anyone knows whether it has rows. -/
theorem not_hasNext_iff_rows_left :
    ¬ ∀ (f : Factory) (idleTimeout start : Nat) (as : List (Nat × Action)) (h : Holder),
      f.Reliable →
      (Holder.new f idleTimeout start).Along (fun now h a => h.interrupts now a = false) as →
      (Holder.new f idleTimeout start).run as = some h →
      ∀ l batch r, h.returned = l ++ batch :: r →
        (batch.hasNext = false ↔ f.WholeStream ((l ++ [batch]).flatMap Batch.rows)) := by
  intro hclaim
  have hrun : ∃ h batch c c',
      (Holder.new emptyTail 60 0).run firstFetch = some h ∧
      h.returned = [batch] ∧
      batch.hasNext = true ∧
      batch.rows = c.firstRows 2 ∧
      emptyTail.backend.execute 0 0 = .ok c ∧
      c.rowAt? 2 = none ∧
      c.hasNextBatch = true ∧
      emptyTail.backend.execute 0 1 = .ok c' ∧
      c'.rowAt? 0 = none ∧
      c'.hasNextBatch = false :=
    ⟨_, _, _, _, rfl, rfl, rfl, rfl, rfl, rfl, rfl, rfl, rfl, rfl⟩
  obtain ⟨h, batch, c, c', hrun, hreturned, hnext, hrows, hexecute, hend, hpromise, hexecute',
    hempty, hlast⟩ := hrun
  have hreliable : emptyTail.Reliable := Factory.reliable_ofScript (by decide)
  have hcheck : (Holder.new emptyTail 60 0).checkAlong (fun now h a => !h.interrupts now a)
      firstFetch = true := rfl
  have hwhole : emptyTail.WholeStream (([] ++ [batch]).flatMap Batch.rows) := by
    refine ⟨1, _, c', 0, .next (.first hexecute) hend hpromise hexecute', hempty, hlast, ?_⟩
    rw [List.nil_append, List.flatMap_singleton, hrows]
    exact (List.append_nil _).symm
  have hno := (hclaim emptyTail 60 0 firstFetch h hreliable (calm_of_checkAlong hcheck) hrun []
    batch [] hreturned).mpr hwhole
  rw [hnext] at hno
  cases hno

end Holder

end PagedQuery.Task
