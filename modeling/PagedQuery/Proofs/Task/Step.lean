import PagedQuery.Task.Holder

/-!
# Steps of a holder

Every action of a holder is one of the steps listed here, each with what makes
it possible and the state it leads to. Whatever is preserved by these steps
holds in all runs, and nothing else has to be said about `Holder.step`.

* `Holder.JobStep`, `Holder.WorkerStep`: the steps of a batch job and of a computation;
* `Holder.Step`: the steps of a holder;
* `Holder.step_of_eq_some`: actions are steps.
-/

namespace PagedQuery.Task

/-! ## After a close -/

/-- Where a call goes on once the holder is closed. -/
def AfterClose.stage : AfterClose → Stage
  | .fetch result => .fetchTouch result
  | .check => .checkUnlock
  | .cancel => .returned .cancelled

/-- What is noted about a call once the holder is closed. -/
def AfterClose.events (c : Nat) : AfterClose → List Event
  | .cancel => [.replied c .cancelled]
  | _ => []

namespace Holder

theorem afterClose_eq (h : Holder) (c : Nat) (after : AfterClose) :
    h.afterClose c after = { h with log := h.log ++ after.events c }.goTo c after.stage := by
  cases after with
  | fetch result => simp [afterClose, goTo, AfterClose.stage, AfterClose.events]
  | check => simp [afterClose, goTo, AfterClose.stage, AfterClose.events]
  | cancel => rfl

/-! ## What parts of steps leave alone -/

section

variable (h : Holder) (j : Nat) (j? : Option Nat)

/-- Aborting a job changes nothing else. -/
theorem abort_eq : h.abort j = { h with jobs := (h.abort j).jobs } := by
  unfold abort
  split <;> rfl

theorem abort?_eq : h.abort? j? = { h with jobs := (h.abort? j?).jobs } := by
  cases j? with
  | none => rfl
  | some j => exact h.abort_eq j

/-- Nor does aborting a second one. -/
theorem abort?_abort?_eq (i? : Option Nat) :
    (h.abort? i?).abort? j? = { h with jobs := ((h.abort? i?).abort? j?).jobs } := by
  have hfirst := h.abort?_eq i?
  generalize h.abort? i? = h₁ at hfirst
  have hframe (jobs : List Job) : { h₁ with jobs } = { h with jobs } := by
    rw [hfirst]
  rw [abort?_eq h₁ j?]
  exact hframe _

/-- The task and its connection are cancelled, if there is a connection. -/
theorem cancelTask_eq :
    h.cancelTask =
      { h with
        log := h.log ++ Event.taskCancelled ::
          h.session.connection.toList.map Event.connectionCancelled } := by
  cases hopen : h.session.connection <;> simp [cancelTask, record, hopen]

/-- The task and its connection are closed, if there is a connection. -/
theorem closeTask_eq :
    h.closeTask =
      { h with
        session := { h.session with connection := none }
        log := h.log ++ Event.taskClosed ::
          h.session.connection.toList.map Event.connectionClosed } := by
  cases hopen : h.session.connection with
  | none =>
    have hsession : { h.session with connection := none } = h.session := by
      rw [← hopen]
    simp [closeTask, record, hopen, hsession]
  | some connection => simp [closeTask, record, hopen]

end

/-! ## Jobs and workers -/

variable (h : Holder)

/-- The batch of rows that a cursor gave. -/
def batchOf (rows : List Row) (cursor : Lookahead) (hasNext : Bool) : Batch :=
  { rows, columns := cursor.cursor.columns, hasNext }

/-- The steps of the batch job with number `j`. -/
inductive JobStep (j : Nat) : Job → Holder → Prop where
  /-- The computation that the job waits for has given a cursor. -/
  | computed {w : Nat} {cursor : Cursor}
      (hworker : h.workers[w]? = some (.finished (.ok cursor))) :
      JobStep j (.waiting w) (h.setJob j (.reading (.ofCursor cursor)))
  | computeFailed {w : Nat} {cause : Fault}
      (hworker : h.workers[w]? = some (.finished (.error cause))) :
      JobStep j (.waiting w) (h.setJob j (.finished (.failed cause)))
  | read {cursor next : Lookahead} {rows : List Row} {more : Bool}
      (hread : cursor.readBatch h.batchLimit = (.ok (rows, more), next)) :
      JobStep j (.reading cursor) (h.setJob j (.gathered rows more next))
  | readFailed {cursor next : Lookahead} {cause : Fault}
      (hread : cursor.readBatch h.batchLimit = (.error cause, next)) :
      JobStep j (.reading cursor) (h.setJob j (.finished (.failed cause)))
  | crash {rows : List Row} {more : Bool} {cursor : Lookahead}
      (hcrash : cursor.cursor.columnsCrash = true) :
      JobStep j (.gathered rows more cursor) (h.setJob j (.finished .crashed))
  /-- The cursor has more rows. -/
  | goOn {rows : List Row} {cursor : Lookahead} (hcrash : cursor.cursor.columnsCrash = false) :
      JobStep j (.gathered rows true cursor)
        (h.setJob j (.finished (.ready (batchOf rows cursor true) (some (.opened cursor)))))
  /-- The cursor is drained and promises another computation, which starts at once. -/
  | chain {rows : List Row} {cursor : Lookahead} (hcrash : cursor.cursor.columnsCrash = false)
      (hnext : cursor.cursor.hasNextBatch = true) :
      JobStep j (.gathered rows false cursor)
        ({ h with workers := h.workers ++ [Worker.started] }.setJob j
          (.finished (.ready (batchOf rows cursor true) (some (.computing h.workers.length)))))
  /-- The cursor is drained, and it was the last one. -/
  | drain {rows : List Row} {cursor : Lookahead} (hcrash : cursor.cursor.columnsCrash = false)
      (hnext : cursor.cursor.hasNextBatch = false) :
      JobStep j (.gathered rows false cursor)
        (h.setJob j (.finished (.ready (batchOf rows cursor false) none)))

/-- The steps of the computation with number `w`. -/
inductive WorkerStep (w : Nat) : Worker → Holder → Prop where
  /-- The computation takes the open connection. -/
  | reuse {connection : Nat} (hopen : h.session.connection = some connection) :
      WorkerStep w .started (h.setWorker w (.connected connection))
  | connect (hopen : h.session.connection = none)
      (hconnect : h.factory.backend.connect h.session.attempts = .ok ()) :
      WorkerStep w .started
        ({ h with
            session :=
              { h.session with
                attempts := h.session.attempts + 1, connection := some h.session.attempts }
            log := h.log ++ [Event.connecting] }.setWorker w
          (.connected h.session.attempts))
  | connectFails {cause : Fault} (hopen : h.session.connection = none)
      (hconnect : h.factory.backend.connect h.session.attempts = .error cause) :
      WorkerStep w .started
        ({ h with
            session := { h.session with attempts := h.session.attempts + 1 }
            log := h.log ++ [Event.connecting] }.setWorker w
          (.finished (.error cause)))
  | execute {connection : Nat} :
      WorkerStep w (.connected connection)
        ({ h with
            session := { h.session with executions := h.session.executions ++ [connection] }
            log := h.log ++ [Event.executing connection] }.setWorker w
          (.executing connection (h.session.executions.count connection)))
  | executed {connection execution : Nat} {cursor : Cursor}
      (hexecute : h.factory.backend.execute connection execution = .ok cursor) :
      WorkerStep w (.executing connection execution) (h.setWorker w (.executed cursor))
  | executeFails {connection execution : Nat} {cause : Fault}
      (hexecute : h.factory.backend.execute connection execution = .error cause) :
      WorkerStep w (.executing connection execution)
        (h.setWorker w (.finished (.error cause)))
  | opened {cursor : Cursor} :
      WorkerStep w (.executed cursor)
        ({ h with session := { h.session with opened := true } }.setWorker w
          (.finished (.ok cursor)))

variable {h}

theorem jobStep_of_eq_some {j : Nat} {job : Job} {h' : Holder}
    (hstep : h.jobStep j job = some h') : h.JobStep j job h' := by
  cases job with
  | waiting w =>
    simp only [jobStep] at hstep
    split at hstep
    · cases hstep
      exact .computed ‹_›
    · cases hstep
      exact .computeFailed ‹_›
    · cases hstep
  | reading cursor =>
    simp only [jobStep] at hstep
    split at hstep
    · cases hstep
      exact .read ‹_›
    · cases hstep
      exact .readFailed ‹_›
  | gathered rows more cursor =>
    simp only [jobStep] at hstep
    cases hcrash : cursor.cursor.columnsCrash with
    | true =>
      rw [hcrash] at hstep
      cases hstep
      exact .crash hcrash
    | false =>
      rw [hcrash, if_neg Bool.false_ne_true] at hstep
      cases more with
      | true =>
        cases hstep
        exact .goOn hcrash
      | false =>
        rw [if_neg Bool.false_ne_true] at hstep
        cases hnext : cursor.cursor.hasNextBatch with
        | true =>
          rw [hnext] at hstep
          cases hstep
          exact .chain hcrash hnext
        | false =>
          rw [hnext] at hstep
          cases hstep
          exact .drain hcrash hnext
  | finished result => cases hstep
  | aborted => cases hstep

theorem workerStep_of_eq_some {w : Nat} {worker : Worker} {h' : Holder}
    (hstep : h.workerStep w worker = some h') : h.WorkerStep w worker h' := by
  cases worker with
  | started =>
    simp only [workerStep] at hstep
    split at hstep
    · cases hstep
      exact .reuse ‹_›
    · rename_i hopen
      cases hconnect : h.factory.backend.connect h.session.attempts with
      | ok _ =>
        simp only [record, hconnect] at hstep
        cases hstep
        exact .connect hopen hconnect
      | error cause =>
        simp only [record, hconnect] at hstep
        cases hstep
        exact .connectFails hopen hconnect
  | connected connection =>
    cases hstep
    exact .execute
  | executing connection execution =>
    simp only [workerStep] at hstep
    split at hstep
    · cases hstep
      exact .executed ‹_›
    · cases hstep
      exact .executeFails ‹_›
  | executed cursor =>
    cases hstep
    exact .opened
  | finished result => cases hstep

/-! ## All steps -/

variable (h) in
/-- The steps of a holder at a time `now`. -/
inductive Step (now : Nat) : Action → Holder → Prop where
  | begin (operation : Operation) :
      Step now (.begin operation) { h with calls := h.calls ++ [firstStage operation] }
  -- the fetch lock
  | refuse {c timeout owner : Nat} (hc : h.calls[c]? = some (.fetchBegin timeout))
      (hlock : h.fetchLock = some owner) :
      Step now (.call c) (h.reply c (.fetched (.error .fetchInProgress)))
  | lock {c timeout : Nat} (hc : h.calls[c]? = some (.fetchBegin timeout))
      (hlock : h.fetchLock = none) :
      Step now (.call c) ({ h with fetchLock := some c }.goTo c (.fetchStart timeout))
  | unlock {c : Nat} {result : FetchResult} (hc : h.calls[c]? = some (.fetchUnlock result)) :
      Step now (.call c) ({ h with fetchLock := none }.reply c (.fetched result))
  | leave {c : Nat} (hc : h.calls[c]? = some .fetchLeave) :
      Step now (.call c) ({ h with fetchLock := none }.reply c .abandoned)
  -- the start of a batch
  | createFails {c timeout : Nat} {message : String}
      (hc : h.calls[c]? = some (.fetchStart timeout)) (hfree : h.stateLock = none)
      (hlife : h.lifecycle = .prepared) (hcreate : h.factory.createError = some message) :
      Step now (.call c)
        ({ h with
            lastTouched := now, lifecycle := .closed
            log := h.log ++ [Event.creating] }.goTo c
          (.fetchTouch (.error (.execution (.failed message)))))
  | create {c timeout : Nat} (hc : h.calls[c]? = some (.fetchStart timeout))
      (hfree : h.stateLock = none) (hlife : h.lifecycle = .prepared)
      (hcreate : h.factory.createError = none) :
      Step now (.call c)
        ({ h with
            lastTouched := now
            workers := h.workers ++ [Worker.started]
            jobs := h.jobs ++ [Job.waiting h.workers.length]
            lifecycle := .executed
              { source := none, batchJob := some h.jobs.length, pending := none }
            log := h.log ++ [Event.creating, Event.created] }.goTo c
          (.fetchWait h.jobs.length (now + timeout)))
  | resume {c timeout j : Nat} {e : Execution} (hc : h.calls[c]? = some (.fetchStart timeout))
      (hfree : h.stateLock = none) (hlife : h.lifecycle = .executed e)
      (hpending : e.pending = some j) :
      Step now (.call c)
        ({ h with
            lastTouched := now, lifecycle := .executed { e with pending := none } }.goTo c
          (.fetchWait j (now + timeout)))
  | start {c timeout : Nat} {e : Execution} {source : RowSource}
      (hc : h.calls[c]? = some (.fetchStart timeout)) (hfree : h.stateLock = none)
      (hlife : h.lifecycle = .executed e) (hpending : e.pending = none)
      (hsource : e.source = some source) :
      Step now (.call c)
        ({ h with
            lastTouched := now
            jobs := h.jobs ++ [Job.ofSource source]
            lifecycle := .executed { e with source := none, batchJob := some h.jobs.length } }.goTo
          c (.fetchWait h.jobs.length (now + timeout)))
  | startNothing {c timeout : Nat} {e : Execution}
      (hc : h.calls[c]? = some (.fetchStart timeout)) (hfree : h.stateLock = none)
      (hlife : h.lifecycle = .executed e) (hpending : e.pending = none)
      (hsource : e.source = none) :
      Step now (.call c)
        ({ h with lastTouched := now }.goTo c (.fetchTouch (.error .closed)))
  | startClosed {c timeout : Nat} (hc : h.calls[c]? = some (.fetchStart timeout))
      (hfree : h.stateLock = none) (hlife : h.lifecycle = .closed) :
      Step now (.call c)
        ({ h with lastTouched := now }.goTo c (.fetchTouch (.error .closed)))
  -- the wait for a batch
  | receive {c j deadline : Nat} {batch : Batch} {next : Option RowSource}
      (hc : h.calls[c]? = some (.fetchWait j deadline))
      (hjob : h.jobs[j]? = some (.finished (.ready batch next))) :
      Step now (.call c) (h.goTo c (.fetchFinish batch next))
  | receiveFailed {c j deadline : Nat} {cause : Fault}
      (hc : h.calls[c]? = some (.fetchWait j deadline))
      (hjob : h.jobs[j]? = some (.finished (.failed cause))) :
      Step now (.call c) (h.goTo c (.close true (.fetch (.error (.execution cause)))))
  | receiveCrashed {c j deadline : Nat} (hc : h.calls[c]? = some (.fetchWait j deadline))
      (hjob : h.jobs[j]? = some (.finished .crashed)) :
      Step now (.call c) (h.goTo c (.close true (.fetch (.error .join))))
  | receiveAborted {c j deadline : Nat} (hc : h.calls[c]? = some (.fetchWait j deadline))
      (hjob : h.jobs[j]? = some .aborted) :
      Step now (.call c) (h.goTo c (.fetchTouch (.error .closed)))
  | expire {c j deadline : Nat} (hc : h.calls[c]? = some (.fetchWait j deadline))
      (hnow : deadline ≤ now) :
      Step now (.expire c)
        ({ h with jobs := (h.abort j).jobs }.goTo c (.close true (.fetch (.error .timeout))))
  | abandonBegin {c timeout : Nat} (hc : h.calls[c]? = some (.fetchBegin timeout)) :
      Step now (.abandon c) (h.reply c .abandoned)
  | abandonWait {c j deadline : Nat} (hc : h.calls[c]? = some (.fetchWait j deadline)) :
      Step now (.abandon c) (h.goTo c (.fetchPark j))
  -- the end of a batch
  | accept {c : Nat} {batch : Batch} {source : RowSource} {e : Execution}
      (hc : h.calls[c]? = some (.fetchFinish batch (some source))) (hfree : h.stateLock = none)
      (hlife : h.lifecycle = .executed e) :
      Step now (.call c)
        ({ h with lifecycle := .executed { e with batchJob := none, source := some source } }.goTo
          c (.fetchTouch (.ok batch)))
  | acceptLast {c : Nat} {batch : Batch} {e : Execution}
      (hc : h.calls[c]? = some (.fetchFinish batch none)) (hfree : h.stateLock = none)
      (hlife : h.lifecycle = .executed e) :
      Step now (.call c)
        ({ h with lifecycle := .executed { e with batchJob := none } }.goTo c
          (.close false (.fetch (.ok batch))))
  | lose {c : Nat} {batch : Batch} {next : Option RowSource}
      (hc : h.calls[c]? = some (.fetchFinish batch next)) (hfree : h.stateLock = none)
      (hlife : h.lifecycle.state ≠ .executed) :
      Step now (.call c) (h.goTo c (.fetchTouch (.error .closed)))
  | touch {c : Nat} {result : FetchResult} (hc : h.calls[c]? = some (.fetchTouch result))
      (hfree : h.stateLock = none) :
      Step now (.call c) ({ h with lastTouched := now }.goTo c (.fetchUnlock result))
  | park {c j : Nat} {e : Execution} (hc : h.calls[c]? = some (.fetchPark j))
      (hfree : h.stateLock = none) (hlife : h.lifecycle = .executed e) :
      Step now (.call c)
        ({ h with lifecycle := .executed { e with pending := some j } }.goTo c .fetchLeave)
  | parkClosed {c j : Nat} (hc : h.calls[c]? = some (.fetchPark j)) (hfree : h.stateLock = none)
      (hlife : h.lifecycle.state ≠ .executed) :
      Step now (.call c) ({ h with jobs := (h.abort j).jobs }.goTo c .fetchLeave)
  -- closing
  | closeClosed {c : Nat} {cancel : Bool} {after : AfterClose}
      (hc : h.calls[c]? = some (.close cancel after)) (hfree : h.stateLock = none)
      (hlife : h.lifecycle = .closed) :
      Step now (.call c) ({ h with log := h.log ++ after.events c }.goTo c after.stage)
  | closePrepared {c : Nat} {cancel : Bool} {after : AfterClose}
      (hc : h.calls[c]? = some (.close cancel after)) (hfree : h.stateLock = none)
      (hlife : h.lifecycle = .prepared) :
      Step now (.call c)
        ({ h with lifecycle := .closed, log := h.log ++ after.events c }.goTo c after.stage)
  | closeExecuted {c : Nat} {cancel : Bool} {after : AfterClose} {e : Execution}
      (hc : h.calls[c]? = some (.close cancel after)) (hfree : h.stateLock = none)
      (hlife : h.lifecycle = .executed e) :
      Step now (.call c) ({ h with lifecycle := .closed }.goTo c (.abortJobs e cancel after))
  | abortJobs {c : Nat} {e : Execution} {cancel : Bool} {after : AfterClose}
      (hc : h.calls[c]? = some (.abortJobs e cancel after)) :
      Step now (.call c)
        ({ h with jobs := ((h.abort? e.batchJob).abort? e.pending).jobs }.goTo c
          (if cancel then .cancelTask after else .closeTask after))
  | cancelTask {c : Nat} {after : AfterClose} (hc : h.calls[c]? = some (.cancelTask after)) :
      Step now (.call c)
        ({ h with
            log := h.log ++ Event.taskCancelled ::
              h.session.connection.toList.map Event.connectionCancelled }.goTo c
          (.closeTask after))
  | closeTask {c : Nat} {after : AfterClose} (hc : h.calls[c]? = some (.closeTask after)) :
      Step now (.call c)
        ({ h with
            session := { h.session with connection := none }
            log := h.log ++ Event.taskClosed ::
              (h.session.connection.toList.map Event.connectionClosed ++ after.events c) }.goTo c
          after.stage)
  -- idle checks
  | checkBusy {c owner : Nat} (hc : h.calls[c]? = some .checkBegin)
      (hlock : h.stateLock = some owner) :
      Step now (.call c) (h.reply c (.checked false))
  | busy {c : Nat} (hc : h.calls[c]? = some .checkBegin)
      (hbusy : h.calls.any Stage.wantsStateLock = true) :
      Step now (.busy c) (h.reply c (.checked false))
  | checkBegin {c : Nat} (hc : h.calls[c]? = some .checkBegin) (hfree : h.stateLock = none) :
      Step now (.call c) ({ h with stateLock := some c }.goTo c .checkInspect)
  | checkClosed {c : Nat} (hc : h.calls[c]? = some .checkInspect) (hlife : h.lifecycle = .closed) :
      Step now (.call c) ({ h with stateLock := none }.reply c (.checked true))
  | checkFetching {c owner : Nat} (hc : h.calls[c]? = some .checkInspect)
      (hlife : h.lifecycle.state ≠ .closed) (hlock : h.fetchLock = some owner) :
      Step now (.call c) ({ h with stateLock := none }.reply c (.checked false))
  | checkInspect {c : Nat} (hc : h.calls[c]? = some .checkInspect)
      (hlife : h.lifecycle.state ≠ .closed) (hlock : h.fetchLock = none) :
      Step now (.call c) ({ h with fetchLock := some c }.goTo c .checkDecide)
  | keep {c : Nat} (hc : h.calls[c]? = some .checkDecide)
      (hyoung : now - h.lastTouched < h.idleTimeout) :
      Step now (.call c)
        ({ h with stateLock := none, fetchLock := none }.reply c (.checked false))
  | reclaimClosed {c : Nat} (hc : h.calls[c]? = some .checkDecide)
      (hidle : h.idleTimeout ≤ now - h.lastTouched) (hlife : h.lifecycle = .closed) :
      Step now (.call c) ({ h with stateLock := none }.goTo c .checkUnlock)
  | reclaimPrepared {c : Nat} (hc : h.calls[c]? = some .checkDecide)
      (hidle : h.idleTimeout ≤ now - h.lastTouched) (hlife : h.lifecycle = .prepared) :
      Step now (.call c)
        ({ h with stateLock := none, lifecycle := .closed }.goTo c .checkUnlock)
  | reclaimExecuted {c : Nat} {e : Execution} (hc : h.calls[c]? = some .checkDecide)
      (hidle : h.idleTimeout ≤ now - h.lastTouched) (hlife : h.lifecycle = .executed e) :
      Step now (.call c)
        ({ h with stateLock := none, lifecycle := .closed }.goTo c (.abortJobs e true .check))
  | checkUnlock {c : Nat} (hc : h.calls[c]? = some .checkUnlock) :
      Step now (.call c) ({ h with fetchLock := none }.reply c (.checked true))
  -- status requests
  | statusBegin {c : Nat} (hc : h.calls[c]? = some .statusBegin) (hfree : h.stateLock = none) :
      Step now (.call c) (h.goTo c (.statusState h.progress))
  | statusState {c : Nat} {progress : Binary64} (hc : h.calls[c]? = some (.statusState progress))
      (hfree : h.stateLock = none) :
      Step now (.call c) (h.reply c (.status progress h.lifecycle.state))
  -- work in progress
  | job {j : Nat} {job : Job} {h' : Holder} (hj : h.jobs[j]? = some job)
      (hjob : h.JobStep j job h') : Step now (.job j) h'
  | worker {w : Nat} {worker : Worker} {h' : Holder} (hw : h.workers[w]? = some worker)
      (hworker : h.WorkerStep w worker h') : Step now (.worker w) h'

theorem locked_eq_some_iff {after h' : Holder} :
    h.locked after = some h' ↔ h.stateLock = none ∧ after = h' := by
  unfold locked
  cases h.stateLock with
  | none => simp
  | some owner => simp

theorem state_ne_executed {l : Lifecycle} (h : ∀ e, l ≠ .executed e) : l.state ≠ .executed := by
  cases l with
  | prepared => exact TaskState.noConfusion
  | executed e => exact absurd rfl (h e)
  | closed => exact TaskState.noConfusion

theorem state_ne_closed {l : Lifecycle} (h : l ≠ .closed) : l.state ≠ .closed := by
  cases l with
  | prepared => exact TaskState.noConfusion
  | executed e => exact TaskState.noConfusion
  | closed => exact absurd rfl h

theorem step_startBatch {now c timeout : Nat} (hc : h.calls[c]? = some (.fetchStart timeout))
    (hfree : h.stateLock = none) : h.Step now (.call c) (h.startBatch now c timeout) := by
  cases hlife : h.lifecycle with
  | prepared =>
    cases hcreate : h.factory.createError with
    | some message =>
      have heq : h.Step now _ _ := .createFails hc hfree hlife hcreate
      simpa [startBatch, create, hlife, hcreate, record] using heq
    | none =>
      have heq : h.Step now _ _ := .create hc hfree hlife hcreate
      simpa [startBatch, create, hlife, hcreate, record, startJob, spawnWorker, Job.ofSource]
        using heq
  | executed e =>
    cases hpending : e.pending with
    | some j =>
      have heq : h.Step now _ _ := .resume hc hfree hlife hpending
      simpa [startBatch, startJob, hlife, hpending] using heq
    | none =>
      cases hsource : e.source with
      | some source =>
        have heq : h.Step now _ _ := .start hc hfree hlife hpending hsource
        simpa [startBatch, startJob, hlife, hpending, hsource] using heq
      | none =>
        have heq : h.Step now _ _ := .startNothing hc hfree hlife hpending hsource
        simpa [startBatch, startJob, hlife, hpending, hsource] using heq
  | closed =>
    have heq : h.Step now _ _ := .startClosed hc hfree hlife
    simpa [startBatch, startJob, hlife] using heq

theorem step_receive {now c j deadline : Nat} {h' : Holder}
    (hc : h.calls[c]? = some (.fetchWait j deadline)) (hstep : h.receive? c j = some h') :
    h.Step now (.call c) h' := by
  unfold receive? at hstep
  split at hstep
  · cases hstep
    exact .receive hc ‹_›
  · cases hstep
    exact .receiveFailed hc ‹_›
  · cases hstep
    exact .receiveCrashed hc ‹_›
  · cases hstep
    exact .receiveAborted hc ‹_›
  · cases hstep

theorem step_finishBatch {now c : Nat} {batch : Batch} {next : Option RowSource}
    (hc : h.calls[c]? = some (.fetchFinish batch next)) (hfree : h.stateLock = none) :
    h.Step now (.call c) (h.finishBatch c batch next) := by
  unfold finishBatch
  split
  · split
    · exact .accept hc hfree ‹_›
    · exact .acceptLast hc hfree ‹_›
  · exact .lose hc hfree (state_ne_executed ‹_›)

theorem step_park {now c j : Nat} (hc : h.calls[c]? = some (.fetchPark j))
    (hfree : h.stateLock = none) : h.Step now (.call c) (h.park c j) := by
  unfold park
  split
  · exact .park hc hfree ‹_›
  · rw [abort_eq]
    exact .parkClosed hc hfree (state_ne_executed ‹_›)

theorem step_close {now c : Nat} {cancel : Bool} {after : AfterClose}
    (hc : h.calls[c]? = some (.close cancel after)) (hfree : h.stateLock = none) :
    h.Step now (.call c) (h.close c cancel after) := by
  unfold close
  split
  · rw [afterClose_eq]
    exact .closeClosed hc hfree ‹_›
  · rw [afterClose_eq]
    exact .closePrepared hc hfree ‹_›
  · exact .closeExecuted hc hfree ‹_›

theorem step_inspect {now c : Nat} (hc : h.calls[c]? = some .checkInspect) :
    h.Step now (.call c) (h.inspect c) := by
  unfold inspect
  split
  · exact .checkClosed hc ‹_›
  · split
    · exact .checkFetching hc (state_ne_closed ‹_›) ‹_›
    · exact .checkInspect hc (state_ne_closed ‹_›) ‹_›

theorem step_decide {now c : Nat} (hc : h.calls[c]? = some .checkDecide) :
    h.Step now (.call c) (h.decide now c) := by
  unfold decide
  split
  · exact .keep hc ‹_›
  · have hidle : h.idleTimeout ≤ now - h.lastTouched := Nat.le_of_not_lt ‹_›
    cases hlife : h.lifecycle with
    | prepared =>
      have heq := Step.reclaimPrepared hc hidle hlife
      simpa [close, hlife, afterClose] using heq
    | executed e =>
      have heq := Step.reclaimExecuted hc hidle hlife
      simpa [close, hlife] using heq
    | closed =>
      have heq := Step.reclaimClosed hc hidle hlife
      simpa [close, hlife, afterClose] using heq

theorem step_callStep {now c : Nat} {stage : Stage} {h' : Holder}
    (hc : h.calls[c]? = some stage) (hstep : h.callStep now c stage = some h') :
    h.Step now (.call c) h' := by
  cases stage with
  | fetchBegin timeout =>
    simp only [callStep] at hstep
    split at hstep
    · cases hstep
      exact .refuse hc ‹_›
    · cases hstep
      exact .lock hc ‹_›
  | fetchStart timeout =>
    obtain ⟨hfree, rfl⟩ := locked_eq_some_iff.mp hstep
    exact step_startBatch hc hfree
  | fetchWait j deadline => exact step_receive hc hstep
  | fetchFinish batch next =>
    obtain ⟨hfree, rfl⟩ := locked_eq_some_iff.mp hstep
    exact step_finishBatch hc hfree
  | fetchTouch result =>
    obtain ⟨hfree, rfl⟩ := locked_eq_some_iff.mp hstep
    exact .touch hc hfree
  | fetchUnlock result =>
    cases hstep
    exact .unlock hc
  | fetchPark j =>
    obtain ⟨hfree, rfl⟩ := locked_eq_some_iff.mp hstep
    exact step_park hc hfree
  | fetchLeave =>
    cases hstep
    exact .leave hc
  | close cancel after =>
    obtain ⟨hfree, rfl⟩ := locked_eq_some_iff.mp hstep
    exact step_close hc hfree
  | abortJobs e cancel after =>
    cases hstep
    rw [abort?_abort?_eq]
    exact .abortJobs hc
  | cancelTask after =>
    cases hstep
    rw [cancelTask_eq]
    exact .cancelTask hc
  | closeTask after =>
    cases hstep
    rw [closeTask_eq, afterClose_eq]
    simp only [List.append_assoc, List.cons_append]
    exact .closeTask hc
  | checkBegin =>
    simp only [callStep] at hstep
    split at hstep
    · cases hstep
      exact .checkBusy hc ‹_›
    · cases hstep
      exact .checkBegin hc ‹_›
  | checkInspect =>
    cases hstep
    exact step_inspect hc
  | checkDecide =>
    cases hstep
    exact step_decide hc
  | checkUnlock =>
    cases hstep
    exact .checkUnlock hc
  | statusBegin =>
    obtain ⟨hfree, rfl⟩ := locked_eq_some_iff.mp hstep
    exact .statusBegin hc hfree
  | statusState progress =>
    obtain ⟨hfree, rfl⟩ := locked_eq_some_iff.mp hstep
    exact .statusState hc hfree
  | returned reply => cases hstep

/-- Every action that is possible is one of the steps. -/
theorem step_of_eq_some {now : Nat} {a : Action} {h' : Holder} (hstep : h.step now a = some h') :
    h.Step now a h' := by
  cases a with
  | begin operation =>
    cases hstep
    exact .begin operation
  | call c =>
    obtain ⟨stage, hc, hstep⟩ := Option.bind_eq_some_iff.mp hstep
    exact step_callStep hc hstep
  | expire c =>
    obtain ⟨stage, hc, hstep⟩ := Option.bind_eq_some_iff.mp hstep
    unfold expire at hstep
    split at hstep
    · split at hstep
      · rw [abort_eq] at hstep
        cases hstep
        exact .expire hc ‹_›
      · cases hstep
    · cases hstep
  | abandon c =>
    obtain ⟨stage, hc, hstep⟩ := Option.bind_eq_some_iff.mp hstep
    unfold abandon at hstep
    split at hstep
    · cases hstep
      exact .abandonBegin hc
    · cases hstep
      exact .abandonWait hc
    · cases hstep
  | busy c =>
    obtain ⟨stage, hc, hstep⟩ := Option.bind_eq_some_iff.mp hstep
    unfold busy at hstep
    split at hstep
    · split at hstep
      · cases hstep
        exact .busy hc ‹_›
      · cases hstep
    · cases hstep
  | job j =>
    obtain ⟨job, hj, hstep⟩ := Option.bind_eq_some_iff.mp hstep
    exact .job hj (jobStep_of_eq_some hstep)
  | worker w =>
    obtain ⟨worker, hw, hstep⟩ := Option.bind_eq_some_iff.mp hstep
    exact .worker hw (workerStep_of_eq_some hstep)

/-- What the task is made of does not change. -/
theorem Step.factory_eq {now : Nat} {a : Action} {h' : Holder} (hstep : h.Step now a h') :
    h'.factory = h.factory := by
  cases hstep with
  | job hj hjob => cases hjob <;> rfl
  | worker hw hworker => cases hworker <;> rfl
  | _ => rfl

theorem Step.idleTimeout_eq {now : Nat} {a : Action} {h' : Holder} (hstep : h.Step now a h') :
    h'.idleTimeout = h.idleTimeout := by
  cases hstep with
  | job hj hjob => cases hjob <;> rfl
  | worker hw hworker => cases hworker <;> rfl
  | _ => rfl

end Holder

end PagedQuery.Task
