import PagedQuery.Task.Error

/-!
# Task holders

A holder owns one prepared statement and serves its rows batch by batch. Calls
run side by side: fetches, cancels, idle checks and status requests. Two locks
order them. A fetch keeps the fetch lock from its first step to its last, so a
second one is refused at once. The state lock guards the lifecycle; nobody
waits for anything while holding it.

The state is one value and every section between two lock operations is one
step, so a run is a list of actions and each interleaving is some run. Calls,
batch jobs and compute workers stay in the state when they are finished: the
state is also the history.

* `Backend`, `Factory`: what the database does, and how a task is made;
* `Holder`, `Stage`: the state, and the points between two steps of a call;
* `Holder.step`: one action, `none` when it is not possible.
-/

namespace PagedQuery.Task

/-! ## The outside -/

/-- What the database does for one task: the outcome of each attempt to connect, and of each
statement on each connection. -/
structure Backend where
  connect : (attempt : Nat) → Except Fault Unit
  execute : (connection execution : Nat) → Except Fault Cursor

/-- How the task of a holder is made when it is first fetched. -/
structure Factory where
  query : String
  /-- The rows of a batch; 0 counts as 1. -/
  fetchSize : Nat
  /-- The error that making the task ends in, if it does. -/
  createError : Option String
  /-- The progress to report instead of the task's own. -/
  progress : Option Binary64
  backend : Backend

/-! ## Work in progress -/

/-- A computation: it takes or opens the connection of the task, executes the statement and
marks the task as opened. -/
inductive Worker where
  | started
  | connected (connection : Nat)
  | executing (connection execution : Nat)
  | executed (cursor : Cursor)
  | finished (result : Except Fault Cursor)

/-- Where the next batch comes from. -/
inductive RowSource where
  | computing (worker : Nat)
  | opened (cursor : Lookahead)

/-- What a batch job gives. -/
inductive JobResult where
  | ready (batch : Batch) (next : Option RowSource)
  | failed (cause : Fault)
  | crashed

/-- A batch job: it waits for a computation, reads rows, and decides where the next batch
comes from. An aborted job gives nothing. -/
inductive Job where
  | waiting (worker : Nat)
  | reading (cursor : Lookahead)
  | gathered (rows : List Row) (more : Bool) (cursor : Lookahead)
  | finished (result : JobResult)
  | aborted

/-- What an executed holder keeps. -/
structure Execution where
  /-- Taken by the running batch job, put back when it is accepted. -/
  source : Option RowSource
  batchJob : Option Nat
  /-- The batch job of a fetch that was dropped while it waited. -/
  pending : Option Nat

inductive Lifecycle where
  | prepared
  | executed (execution : Execution)
  | closed

/-- The lifecycle without its contents. -/
inductive TaskState where
  | prepared
  | executed
  | closed
deriving DecidableEq

def TaskState.name : TaskState → String
  | .prepared => "prepared"
  | .executed => "executed"
  | .closed => "closed"

def Lifecycle.state : Lifecycle → TaskState
  | .prepared => .prepared
  | .executed _ => .executed
  | .closed => .closed

/-- The connection of a task and what was done with it. -/
structure Session where
  /-- The open connection, by the number of the attempt that opened it. -/
  connection : Option Nat
  attempts : Nat
  /-- The connection of each statement so far. -/
  executions : List Nat
  /-- Whether a cursor has been opened. -/
  opened : Bool

def Session.empty : Session :=
  { connection := none, attempts := 0, executions := [], opened := false }

/-! ## Calls -/

abbrev FetchResult := Except TaskError Batch

/-- What a call returns. -/
inductive Reply where
  | fetched (result : FetchResult)
  /-- The fetch was dropped by its caller. -/
  | abandoned
  | cancelled
  | checked (lost : Bool)
  | status (progress : Binary64) (state : TaskState)

/-- What a call does after closing the holder. -/
inductive AfterClose where
  | fetch (result : FetchResult)
  | check
  | cancel

/-- The point a call has reached: what it does in its next step. -/
inductive Stage where
  /-- Try the fetch lock. -/
  | fetchBegin (timeout : Nat)
  /-- Start or resume a batch job, under the state lock. -/
  | fetchStart (timeout : Nat)
  /-- Wait for the batch job. -/
  | fetchWait (job deadline : Nat)
  /-- Accept the batch, under the state lock. -/
  | fetchFinish (batch : Batch) (next : Option RowSource)
  /-- Note the time, under the state lock. -/
  | fetchTouch (result : FetchResult)
  /-- Release the fetch lock and return. -/
  | fetchUnlock (result : FetchResult)
  /-- Keep the batch job of a dropped fetch, under the state lock. -/
  | fetchPark (job : Nat)
  /-- Release the fetch lock of a dropped fetch. -/
  | fetchLeave
  /-- Move to closed, under the state lock. -/
  | close (cancel : Bool) (after : AfterClose)
  /-- Abort the jobs that the closed holder had. -/
  | abortJobs (execution : Execution) (cancel : Bool) (after : AfterClose)
  | cancelTask (after : AfterClose)
  | closeTask (after : AfterClose)
  /-- Try the state lock. -/
  | checkBegin
  /-- Look at the lifecycle and try the fetch lock, holding the state lock. -/
  | checkInspect
  /-- Compare the idle time, holding both locks. -/
  | checkDecide
  /-- Release the fetch lock after reclaiming. -/
  | checkUnlock
  /-- Read the progress, under the state lock. -/
  | statusBegin
  /-- Read the lifecycle, under the state lock. -/
  | statusState (progress : Binary64)
  | returned (reply : Reply)

/-- Whether the next step of a call takes the state lock for one section. -/
def Stage.wantsStateLock : Stage → Bool
  | .fetchStart _ => true
  | .fetchFinish .. => true
  | .fetchTouch _ => true
  | .fetchPark _ => true
  | .close .. => true
  | .statusBegin => true
  | .statusState _ => true
  | _ => false

/-- Things that happened, in the order in which they happened. -/
inductive Event where
  /-- The factory is asked for the task. -/
  | creating
  | created
  | connecting
  | executing (connection : Nat)
  | taskCancelled
  | connectionCancelled (connection : Nat)
  | taskClosed
  | connectionClosed (connection : Nat)
  | replied (call : Nat) (reply : Reply)

/-! ## The holder -/

structure Holder where
  factory : Factory
  idleTimeout : Nat
  /-- The call that holds the fetch lock. -/
  fetchLock : Option Nat
  /-- The idle check that holds the state lock; other sections under it are single steps. -/
  stateLock : Option Nat
  lifecycle : Lifecycle
  lastTouched : Nat
  session : Session
  calls : List Stage
  jobs : List Job
  workers : List Worker
  log : List Event

/-- The kinds of calls. -/
inductive Operation where
  | fetch (timeout : Nat)
  | cancel
  | check
  | status

inductive Action where
  /-- A new call. -/
  | begin (operation : Operation)
  /-- The next step of a call. -/
  | call (index : Nat)
  /-- The wait of a fetch reaches its deadline. -/
  | expire (index : Nat)
  /-- The caller drops a fetch. -/
  | abandon (index : Nat)
  /-- An idle check meets a call inside a section under the state lock. -/
  | busy (index : Nat)
  | job (index : Nat)
  | worker (index : Nat)

namespace Holder

/-- A holder whose task is prepared. -/
def new (factory : Factory) (idleTimeout now : Nat) : Holder :=
  { factory, idleTimeout
    fetchLock := none, stateLock := none
    lifecycle := .prepared, lastTouched := now
    session := Session.empty
    calls := [], jobs := [], workers := [], log := [] }

/-! ### Parts of steps -/

def record (h : Holder) (event : Event) : Holder :=
  { h with log := h.log ++ [event] }

def goTo (h : Holder) (c : Nat) (stage : Stage) : Holder :=
  { h with calls := h.calls.set c stage }

def reply (h : Holder) (c : Nat) (reply : Reply) : Holder :=
  (h.goTo c (.returned reply)).record (.replied c reply)

def setJob (h : Holder) (j : Nat) (job : Job) : Holder :=
  { h with jobs := h.jobs.set j job }

def setWorker (h : Holder) (w : Nat) (worker : Worker) : Holder :=
  { h with workers := h.workers.set w worker }

/-- Starts a computation. -/
def spawnWorker (h : Holder) : Nat × Holder :=
  (h.workers.length, { h with workers := h.workers ++ [.started] })

/-- Aborts a job unless it is finished. -/
def abort (h : Holder) (j : Nat) : Holder :=
  match h.jobs[j]? with
  | some (.finished _) => h
  | _ => h.setJob j .aborted

def abort? (h : Holder) : Option Nat → Holder
  | none => h
  | some j => h.abort j

/-- The rows of one batch. -/
def batchLimit (h : Holder) : Nat :=
  max h.factory.fetchSize 1

/-- The progress of an executed task, within 0 and 1; 0 before and after. -/
def progress (h : Holder) : Binary64 :=
  match h.lifecycle with
  | .executed _ =>
    let own := if h.session.opened then Binary64.ofNat 1 else Binary64.ofNat 0
    let shown := h.factory.progress.getD own
    if Binary64.lt shown (Binary64.ofNat 0) then Binary64.ofNat 0
    else if Binary64.lt (Binary64.ofNat 1) shown then Binary64.ofNat 1
    else shown
  | _ => Binary64.ofNat 0

/-! ### Fetching -/

/-- Makes the task of a prepared holder and starts its computation. A holder whose task cannot
be made is closed. -/
def create (h : Holder) : Except Fault Unit × Holder :=
  let h := h.record .creating
  match h.factory.createError with
  | some message => (.error (.failed message), { h with lifecycle := .closed })
  | none =>
    let (w, h) := h.spawnWorker
    (.ok (), { h with
      lifecycle := .executed
        { source := some (.computing w), batchJob := none, pending := none } }.record .created)

/-- The job that starts to read from a source. -/
def Job.ofSource : RowSource → Job
  | .computing w => .waiting w
  | .opened cursor => .reading cursor

/-- Waits for the parked batch job, or for a new one on the stored source. -/
def startJob (h : Holder) (now c timeout : Nat) : Holder :=
  match h.lifecycle with
  | .executed e =>
    match e.pending with
    | some j =>
      { h with lifecycle := .executed { e with pending := none } }.goTo c
        (.fetchWait j (now + timeout))
    | none =>
      match e.source with
      | some source =>
        let j := h.jobs.length
        { h with
          jobs := h.jobs ++ [Job.ofSource source]
          lifecycle := .executed { e with source := none, batchJob := some j } }.goTo c
          (.fetchWait j (now + timeout))
      | none => h.goTo c (.fetchTouch (.error .closed))
  | _ => h.goTo c (.fetchTouch (.error .closed))

/-- Begins a batch: the first one makes the task. -/
def startBatch (h : Holder) (now c timeout : Nat) : Holder :=
  let h := { h with lastTouched := now }
  match h.lifecycle with
  | .prepared =>
    match h.create with
    | (.ok (), h) => h.startJob now c timeout
    | (.error cause, h) => h.goTo c (.fetchTouch (.error (.execution cause)))
  | _ => h.startJob now c timeout

/-- Takes what a batch job gave; not possible while the job runs. -/
def receive? (h : Holder) (c j : Nat) : Option Holder :=
  match h.jobs[j]? with
  | some (.finished (.ready batch next)) => some (h.goTo c (.fetchFinish batch next))
  | some (.finished (.failed cause)) =>
    some (h.goTo c (.close true (.fetch (.error (.execution cause)))))
  | some (.finished .crashed) => some (h.goTo c (.close true (.fetch (.error .join))))
  | some .aborted => some (h.goTo c (.fetchTouch (.error .closed)))
  | _ => none

/-- Accepts a batch, unless the holder was closed after it was read. The last batch closes
the holder. -/
def finishBatch (h : Holder) (c : Nat) (batch : Batch) (next : Option RowSource) : Holder :=
  match h.lifecycle with
  | .executed e =>
    match next with
    | some source =>
      { h with lifecycle := .executed { e with batchJob := none, source := some source } }.goTo c
        (.fetchTouch (.ok batch))
    | none =>
      { h with lifecycle := .executed { e with batchJob := none } }.goTo c
        (.close false (.fetch (.ok batch)))
  | _ => h.goTo c (.fetchTouch (.error .closed))

/-- Keeps the batch job of a dropped fetch for the next one. -/
def park (h : Holder) (c j : Nat) : Holder :=
  match h.lifecycle with
  | .executed e =>
    { h with lifecycle := .executed { e with pending := some j } }.goTo c .fetchLeave
  | _ => (h.abort j).goTo c .fetchLeave

/-! ### Closing -/

/-- What a call does once the holder is closed. -/
def afterClose (h : Holder) (c : Nat) : AfterClose → Holder
  | .fetch result => h.goTo c (.fetchTouch result)
  | .check => h.goTo c .checkUnlock
  | .cancel => h.reply c .cancelled

/-- Moves to closed; whoever does so releases what the holder had. -/
def close (h : Holder) (c : Nat) (cancel : Bool) (after : AfterClose) : Holder :=
  match h.lifecycle with
  | .closed => h.afterClose c after
  | .prepared => { h with lifecycle := .closed }.afterClose c after
  | .executed e => { h with lifecycle := .closed }.goTo c (.abortJobs e cancel after)

/-- Interrupts the statement that runs on the open connection. -/
def cancelTask (h : Holder) : Holder :=
  let h := h.record .taskCancelled
  match h.session.connection with
  | some connection => h.record (.connectionCancelled connection)
  | none => h

/-- Closes the connection, if one is open. -/
def closeTask (h : Holder) : Holder :=
  let h := h.record .taskClosed
  match h.session.connection with
  | some connection =>
    { h with session := { h.session with connection := none } }.record
      (.connectionClosed connection)
  | none => h

/-! ### Idle checks -/

/-- Looks at the lifecycle, and tries the fetch lock of a holder that is not closed. -/
def inspect (h : Holder) (c : Nat) : Holder :=
  match h.lifecycle with
  | .closed => { h with stateLock := none }.reply c (.checked true)
  | _ =>
    match h.fetchLock with
    | some _ => { h with stateLock := none }.reply c (.checked false)
    | none => { h with fetchLock := some c }.goTo c .checkDecide

/-- Reclaims a holder that has been idle for its timeout. -/
def decide (h : Holder) (now c : Nat) : Holder :=
  if now - h.lastTouched < h.idleTimeout then
    { h with stateLock := none, fetchLock := none }.reply c (.checked false)
  else { h with stateLock := none }.close c true .check

/-! ### Steps -/

/-- Runs a section under the state lock, which must be free. -/
def locked (h : Holder) (after : Holder) : Option Holder :=
  if h.stateLock.isNone then some after else none

/-- The next step of a call. -/
def callStep (h : Holder) (now c : Nat) : Stage → Option Holder
  | .fetchBegin timeout =>
    match h.fetchLock with
    | some _ => some (h.reply c (.fetched (.error .fetchInProgress)))
    | none => some ({ h with fetchLock := some c }.goTo c (.fetchStart timeout))
  | .fetchStart timeout => h.locked (h.startBatch now c timeout)
  | .fetchWait j _ => h.receive? c j
  | .fetchFinish batch next => h.locked (h.finishBatch c batch next)
  | .fetchTouch result => h.locked ({ h with lastTouched := now }.goTo c (.fetchUnlock result))
  | .fetchUnlock result => some ({ h with fetchLock := none }.reply c (.fetched result))
  | .fetchPark j => h.locked (h.park c j)
  | .fetchLeave => some ({ h with fetchLock := none }.reply c .abandoned)
  | .close cancel after => h.locked (h.close c cancel after)
  | .abortJobs e cancel after =>
    some (((h.abort? e.batchJob).abort? e.pending).goTo c
      (if cancel then .cancelTask after else .closeTask after))
  | .cancelTask after => some (h.cancelTask.goTo c (.closeTask after))
  | .closeTask after => some (h.closeTask.afterClose c after)
  | .checkBegin =>
    match h.stateLock with
    | some _ => some (h.reply c (.checked false))
    | none => some ({ h with stateLock := some c }.goTo c .checkInspect)
  | .checkInspect => some (h.inspect c)
  | .checkDecide => some (h.decide now c)
  | .checkUnlock => some ({ h with fetchLock := none }.reply c (.checked true))
  | .statusBegin => h.locked (h.goTo c (.statusState h.progress))
  | .statusState progress => h.locked (h.reply c (.status progress h.lifecycle.state))
  | .returned _ => none

/-- The wait of a fetch ends at its deadline: its job is aborted and the holder closed. -/
def expire (h : Holder) (now c : Nat) : Stage → Option Holder
  | .fetchWait j deadline =>
    if deadline ≤ now then
      some ((h.abort j).goTo c (.close true (.fetch (.error .timeout))))
    else none
  | _ => none

/-- A fetch can be dropped before its first step and while it waits. -/
def abandon (h : Holder) (c : Nat) : Stage → Option Holder
  | .fetchBegin _ => some (h.reply c .abandoned)
  | .fetchWait j _ => some (h.goTo c (.fetchPark j))
  | _ => none

/-- An idle check does not wait for the state lock. -/
def busy (h : Holder) (c : Nat) : Stage → Option Holder
  | .checkBegin =>
    if h.calls.any Stage.wantsStateLock then some (h.reply c (.checked false)) else none
  | _ => none

/-- The next step of a batch job. -/
def jobStep (h : Holder) (j : Nat) : Job → Option Holder
  | .waiting w =>
    match h.workers[w]? with
    | some (.finished (.ok cursor)) => some (h.setJob j (.reading (.ofCursor cursor)))
    | some (.finished (.error cause)) => some (h.setJob j (.finished (.failed cause)))
    | _ => none
  | .reading cursor =>
    match cursor.readBatch h.batchLimit with
    | (.ok (rows, more), cursor) => some (h.setJob j (.gathered rows more cursor))
    | (.error cause, _) => some (h.setJob j (.finished (.failed cause)))
  | .gathered rows more cursor =>
    if cursor.cursor.columnsCrash then some (h.setJob j (.finished .crashed))
    else
      let batch := fun hasNext => { rows, columns := cursor.cursor.columns, hasNext : Batch }
      if more then some (h.setJob j (.finished (.ready (batch true) (some (.opened cursor)))))
      else if cursor.cursor.hasNextBatch then
        let (w, h) := h.spawnWorker
        some (h.setJob j (.finished (.ready (batch true) (some (.computing w)))))
      else some (h.setJob j (.finished (.ready (batch false) none)))
  | .finished _ => none
  | .aborted => none

/-- The next step of a computation. -/
def workerStep (h : Holder) (w : Nat) : Worker → Option Holder
  | .started =>
    match h.session.connection with
    | some connection => some (h.setWorker w (.connected connection))
    | none =>
      let attempt := h.session.attempts
      let h := { h with session := { h.session with attempts := attempt + 1 } }.record .connecting
      match h.factory.backend.connect attempt with
      | .ok () =>
        some ({ h with session := { h.session with connection := some attempt } }.setWorker w
          (.connected attempt))
      | .error cause => some (h.setWorker w (.finished (.error cause)))
  | .connected connection =>
    let execution := h.session.executions.count connection
    let session := { h.session with executions := h.session.executions ++ [connection] }
    some (({ h with session }.record (.executing connection)).setWorker w
      (.executing connection execution))
  | .executing connection execution =>
    match h.factory.backend.execute connection execution with
    | .ok cursor => some (h.setWorker w (.executed cursor))
    | .error cause => some (h.setWorker w (.finished (.error cause)))
  | .executed cursor =>
    some ({ h with session := { h.session with opened := true } }.setWorker w
      (.finished (.ok cursor)))
  | .finished _ => none

/-- The first stage of a call. -/
def firstStage : Operation → Stage
  | .fetch timeout => .fetchBegin timeout
  | .cancel => .close true .cancel
  | .check => .checkBegin
  | .status => .statusBegin

/-- One action at a time `now`; `none` when it is not possible. -/
def step (now : Nat) (h : Holder) : Action → Option Holder
  | .begin operation => some { h with calls := h.calls ++ [firstStage operation] }
  | .call c => h.calls[c]?.bind (h.callStep now c)
  | .expire c => h.calls[c]?.bind (h.expire now c)
  | .abandon c => h.calls[c]?.bind (h.abandon c)
  | .busy c => h.calls[c]?.bind (h.busy c)
  | .job j => h.jobs[j]?.bind (h.jobStep j)
  | .worker w => h.workers[w]?.bind (h.workerStep w)

/-- The reply of a call that has returned. -/
def reply? (h : Holder) (c : Nat) : Option Reply :=
  match h.calls[c]? with
  | some (.returned reply) => some reply
  | _ => none

end Holder

end PagedQuery.Task
