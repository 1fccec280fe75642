import PagedQuery.Task.Registry

/-!
# Scripted sessions

A registry on a virtual clock, with a database whose behaviour is written down
beforehand. One fixed schedule picks the next action: calls first, in the order
in which they began, then batch jobs and computations, then the reaper. All
work on the database is done by one thread, which a held statement occupies.

* `Connector`: what each query does, execution by execution;
* `Simulation`: a running session;
* `Simulation.run`: the answer to one command.
-/

namespace PagedQuery.Task

/-! ## The scripted database -/

/-- What one execution of a query does, in the order of the fields. -/
structure ScriptedRun where
  /-- The execution waits until it is released. -/
  hold : Bool
  crash : Bool
  fail : Option String
  /-- The number of rows `n, row-n`, numbered through over the executions of a connection. -/
  rows : Nat
  /-- The rows after those. -/
  values : List Row
  /-- The number of the row request that fails. -/
  rowError : Option Nat
  next : Bool
  columnsCrash : Bool

namespace ScriptedRun

/-- An execution that gives no rows. -/
def empty : ScriptedRun :=
  { hold := false, crash := false, fail := none, rows := 0, values := [], rowError := none
    next := false, columnsCrash := false }

/-- The numbered row. -/
def row (n : Nat) : Row :=
  [.int n, .string ("row-" ++ toString n)]

/-- The rows that an execution counts. -/
def countedRows (run : ScriptedRun) : Nat :=
  if run.crash || run.fail.isSome then 0 else run.rows

/-- The answer to a row request. -/
def answer (run : ScriptedRun) (first request : Nat) : RowAnswer :=
  if run.rowError = some request then .fault (.failed "row error")
  else if request < run.rows then .row (row (first + request))
  else match run.values[request - run.rows]? with
    | some row => .row row
    | none => .exhausted

/-- The outcome of an execution whose first row has the number `first`. -/
def outcome (run : ScriptedRun) (first : Nat) : Except Fault Cursor :=
  if run.crash then .error .crashed
  else match run.fail with
    | some message => .error (.failed message)
    | none =>
      .ok {
        columns := [⟨"id", .integer⟩, ⟨"label", .string⟩]
        columnsCrash := run.columnsCrash
        answer := run.answer first
        asked := 0
        hasNextBatch := run.next }

end ScriptedRun

/-- The behaviour of a database: the executions of each query, and whether it can be reached. -/
structure Connector where
  scripts : List (String × List ScriptedRun)
  connectError : Option String

namespace Connector

/-- The `n`-th execution of a query on a connection. -/
def execution (connector : Connector) (query : String) (n : Nat) : ScriptedRun :=
  (((connector.scripts.lookup query).getD [])[n]?).getD ScriptedRun.empty

/-- The number of the first row of the `n`-th execution. -/
def firstRow (connector : Connector) (query : String) (n : Nat) : Nat :=
  (List.range n).foldl (fun rows k => rows + (connector.execution query k).countedRows) 0

/-- The database as a task with that query sees it. -/
def backend (connector : Connector) (query : String) : Backend where
  connect _ := match connector.connectError with
    | some message => .error (.failed message)
    | none => .ok ()
  execute _ n := (connector.execution query n).outcome (connector.firstRow query n)

end Connector

/-! ## Sessions -/

/-- A fetch that has not returned: a registry call, or a call on an owned holder. -/
inductive PendingFetch where
  | registered (call : Nat)
  | owned (slot call : Nat)

/-- A fetch in progress under the name it was started with. -/
structure NamedFetch where
  name : String
  task : String
  fetch : PendingFetch

structure Simulation where
  registry : Registry Nat
  connector : Connector
  /-- The task id that a label stands for. -/
  ids : List (String × Nat)
  nextId : Nat
  /-- The owned holder that a label stands for; it comes before the id. -/
  owned : List (String × Nat)
  fetches : List NamedFetch
  /-- The held executions that may go on, by holder and computation. -/
  released : List (Nat × Nat)
  /-- The holders whose creation is not reported. -/
  silent : List Nat
  /-- How much of each holder's log was reported. -/
  reported : List Nat

inductive Command where
  | prepare (task query : String) (fetchSize : Option Nat)
  | put (task query : String) (fetchSize : Nat) (createError : Option String)
      (progress : Option Binary64)
  | holder (task query : String) (fetchSize idle : Nat) (createError : Option String)
      (progress : Option Binary64)
  | fetch (task name : String) (timeout : Option Nat)
  | abandon (name : String)
  | cancel (task : String)
  | status (task : String)
  | check (task : String)
  | drop (task : String)
  | sweep
  | shutdown
  | release
  | advance (ms : Nat)

/-- The immediate result of a command. -/
inductive CommandResult where
  | ok
  | nothing
  /-- There was no such fetch. -/
  | absent
  | refused (task : String) (error : TaskError)
  | made (query : String)
  | missing
  | status (progress : Binary64) (state : TaskState) (registered : Bool)
  | flag (value : Bool)
  | count (n : Nat)
  /-- The command makes no sense in this state. -/
  | invalid

/-- A fetch that has returned. -/
structure CompletedFetch where
  name : String
  task : String
  result : FetchResult

structure CommandAnswer where
  result : CommandResult
  done : List CompletedFetch
  /-- What the database saw since the last answer, sorted. -/
  events : List String
  size : Nat
  pending : List String

namespace Simulation

def start (config : EngineConfig) (connector : Connector) : Simulation :=
  { registry := Registry.start config, connector, ids := [], nextId := 0, owned := []
    fetches := [], released := [], silent := [], reported := [] }

/-- Performs an action if it is possible. -/
def act (s : Simulation) (action : Registry.Action Nat) : Simulation :=
  match s.registry.step action with
  | some registry => { s with registry }
  | none => s

/-! ### The schedule -/

/-- Whether a computation waits to be released. -/
def isHeld (s : Simulation) (slot : Nat) (query : String) (w : Nat) : Worker → Bool
  | .executing _ n => (s.connector.execution query n).hold && !s.released.contains (slot, w)
  | _ => false

/-- The computations that wait to be released. -/
def held (s : Simulation) : List (Nat × Nat) :=
  s.registry.slots.zipIdx.flatMap fun (slot, i) =>
    slot.holder.workers.zipIdx.filterMap fun (worker, w) =>
      if s.isHeld i slot.holder.factory.query w worker then some (i, w) else none

/-- The steps that a call inside a holder may take. -/
def innerCallActions (slot call : Nat) : List (Registry.Action Nat) :=
  [.inner slot (.call call), .inner slot (.expire call)]

/-- The steps that a registry call may take, those of the call it waits for included. -/
def callActions (c : Nat) : Registry.Stage Nat → List (Registry.Action Nat)
  | .fetchWait slot call => .call c :: innerCallActions slot call
  | .cancelWait slot call => .call c :: innerCallActions slot call
  | .sweepWait slot call _ _ => .call c :: innerCallActions slot call
  | .shutdownWait slot call _ => .call c :: innerCallActions slot call
  | .statusWait slot call => .call c :: innerCallActions slot call
  | _ => [.call c]

/-- Every action that the schedule considers, the first choice first. -/
def choices (s : Simulation) : List (Registry.Action Nat) :=
  let slots := s.registry.slots.zipIdx
  let threadFree := s.held.isEmpty
  (s.registry.calls.zipIdx.flatMap fun (stage, c) => callActions c stage) ++
  (slots.flatMap fun (slot, i) =>
    (List.range slot.holder.calls.length).flatMap (innerCallActions i)) ++
  (slots.flatMap fun (slot, i) =>
    slot.holder.jobs.zipIdx.filterMap fun (job, j) =>
      match job with
      | .reading _ => if threadFree then some (.inner i (.job j)) else none
      | _ => some (.inner i (.job j))) ++
  (if threadFree then
    slots.flatMap fun (slot, i) =>
      (List.range slot.holder.workers.length).map fun w => .inner i (.worker w)
  else []) ++
  [.reap] ++
  slots.filterMap fun (slot, i) =>
    if slot.holder.lifecycle.state = .closed then none else some (.drop i)

/-- Performs the first possible action of a list. -/
def actFirst? (s : Simulation) (actions : List (Registry.Action Nat)) : Option Simulation :=
  (actions.findSome? s.registry.step).map fun registry => { s with registry }

/-- More steps than everything in progress can take. -/
def stepBound (s : Simulation) : Nat :=
  let inHolders := s.registry.slots.foldl (fun count slot => count +
    slot.holder.calls.length + slot.holder.jobs.length + slot.holder.workers.length + 1) 0
  64 * (s.registry.calls.length + 1) * (inHolders + 1)

/-- Performs actions until none is possible. -/
def settleWithin (s : Simulation) : Nat → Simulation
  | 0 => s
  | steps + 1 =>
    match s.actFirst? s.choices with
    | none => s
    | some s => s.settleWithin steps

def settle (s : Simulation) : Simulation :=
  s.settleWithin s.stepBound

/-- Lets one registry call run to its end, while nothing else moves. -/
def finishCallWithin (s : Simulation) (c : Nat) : Nat → Simulation
  | 0 => s
  | steps + 1 =>
    match (s.registry.calls[c]?).bind fun stage => s.actFirst? (callActions c stage) with
    | none => s
    | some s => s.finishCallWithin c steps

/-- Performs a registry operation and gives the stage it ended in. -/
def perform (s : Simulation) (operation : Registry.Operation Nat) :
    Simulation × Option (Registry.Stage Nat) :=
  let c := s.registry.calls.length
  let s := s.act (.begin operation)
  let s := s.finishCallWithin c s.stepBound
  (s, s.registry.calls[c]?)

/-- Lets one call on a holder run to its end, while nothing else moves. -/
def finishInnerWithin (s : Simulation) (slot call : Nat) : Nat → Simulation
  | 0 => s
  | steps + 1 =>
    match s.actFirst? (innerCallActions slot call) with
    | none => s
    | some s => s.finishInnerWithin slot call steps

/-- Performs an operation on an owned holder and gives its reply. -/
def performOn (s : Simulation) (slot : Nat) (operation : Operation) :
    Simulation × Option Reply :=
  let call := ((s.registry.holder? slot).map fun h => h.calls.length).getD 0
  let s := s.act (.ask slot operation)
  let s := s.finishInnerWithin slot call 64
  (s, s.registry.innerReply? slot call)

/-! ### Labels -/

/-- The id that a label stands for; a new label gets a new one. -/
def idOf (s : Simulation) (label : String) : Nat × Simulation :=
  match s.ids.lookup label with
  | some id => (id, s)
  | none => (s.nextId, { s with ids := (label, s.nextId) :: s.ids, nextId := s.nextId + 1 })

/-- Lets a label stand for a new id. -/
def freshId (s : Simulation) (label : String) : Nat × Simulation :=
  (s.nextId, { s with ids := (label, s.nextId) :: s.ids, nextId := s.nextId + 1 })

def factory (s : Simulation) (query : String) (fetchSize : Nat) (createError : Option String)
    (progress : Option Binary64) : Factory :=
  { query, fetchSize, createError, progress, backend := s.connector.backend query }

/-- Closes a holder at once if nobody can reach it any more. -/
def collect (s : Simulation) (slot : Nat) : Simulation :=
  match s.registry.holder? slot with
  | none => s
  | some holder =>
    if holder.lifecycle.state = .closed then s
    else match s.registry.step (.drop slot) with
      | none => s
      | some registry => { s with registry }.finishInnerWithin slot holder.calls.length 64

/-- Gives up the holder that a label stands for; tells whether there was one. -/
def disown (s : Simulation) (label : String) : Bool × Simulation :=
  match s.owned.lookup label with
  | none => (false, s)
  | some slot =>
    let s := { s.act (.disown slot) with owned := s.owned.filter fun entry => entry.1 ≠ label }
    (true, s.collect slot)

/-! ### Commands -/

/-- Begins a fetch. -/
def beginFetch (s : Simulation) (task name : String) (timeout : Option Nat) : Simulation :=
  let timeout := timeout.getD s.registry.config.defaultFetchTimeout
  match s.owned.lookup task with
  | some slot =>
    let call := ((s.registry.holder? slot).map fun h => h.calls.length).getD 0
    { s.act (.ask slot (.fetch timeout)) with
      fetches := s.fetches ++ [{ name, task, fetch := .owned slot call }] }
  | none =>
    let (id, s) := s.idOf task
    let call := s.registry.calls.length
    { s.act (.begin (.fetch id timeout)) with
      fetches := s.fetches ++ [{ name, task, fetch := .registered call }] }

/-- Drops a fetch; what it leaves behind is parked before anything else moves. -/
def abandonFetch (s : Simulation) (f : NamedFetch) : Simulation :=
  let s := { s with fetches := s.fetches.filter fun g => g.name ≠ f.name }
  match f.fetch with
  | .registered call =>
    let s := s.act (.abandon call)
    s.finishCallWithin call s.stepBound
  | .owned slot call =>
    ((s.act (.inner slot (.abandon call))).finishInnerWithin slot call 64).collect slot

/-- Performs a command up to the point where other calls would move. -/
def command (s : Simulation) : Command → CommandResult × Simulation
  | .prepare task query fetchSize =>
    let (id, s) := s.freshId task
    let factory := s.factory query (fetchSize.getD s.registry.config.defaultFetchSize) none none
    let slot := s.registry.slots.length
    (.ok, { s.act (.put id factory) with silent := slot :: s.silent })
  | .put task query fetchSize createError progress =>
    let (id, s) := s.idOf task
    match s.registry.put id (s.factory query fetchSize createError progress) with
    | .ok registry => (.ok, { s with registry })
    | .error error => (.refused task error, s)
  | .holder task query fetchSize idle createError progress =>
    let (_, s) := s.disown task
    let (id, s) := s.idOf task
    let slot := s.registry.slots.length
    let s := s.act (.own id (s.factory query fetchSize createError progress) idle)
    (.made query, { s with owned := (task, slot) :: s.owned })
  | .fetch task name timeout =>
    if s.fetches.any fun f => f.name = name then (.invalid, s)
    else (.nothing, s.beginFetch task name timeout)
  | .abandon name =>
    match s.fetches.find? fun f => f.name = name with
    | some f => (.ok, s.abandonFetch f)
    | none => (.absent, s)
  | .cancel task =>
    match s.owned.lookup task with
    | some slot => (.ok, (s.performOn slot .cancel).1)
    | none =>
      let (id, s) := s.idOf task
      (.ok, (s.perform (.cancel id)).1)
  | .status task =>
    match s.owned.lookup task with
    | some slot =>
      match s.performOn slot .status with
      | (s, some (.status progress state)) => (.status progress state false, s)
      | (s, _) => (.missing, s)
    | none =>
      let (id, s) := s.idOf task
      match s.perform (.status id) with
      | (s, some (.status (some (progress, state)))) => (.status progress state true, s)
      | (s, _) => (.missing, s)
  | .check task =>
    match s.owned.lookup task with
    | some slot =>
      match s.performOn slot .check with
      | (s, some (.checked lost)) => (.flag lost, s)
      | (s, _) => (.invalid, s)
    | none => (.invalid, s)
  | .drop task =>
    let (existed, s) := s.disown task
    (.flag existed, s)
  | .sweep =>
    match s.perform .sweep with
    | (s, some (.swept n)) => (.count n, s)
    | (s, _) => (.invalid, s)
  | .shutdown => (.ok, (s.perform .shutdown).1)
  | .release =>
    let held := s.held
    (.count held.length, { s with released := held ++ s.released })
  | .advance ms => (.nothing, s.act (.tick ms))

/-! ### Answers -/

/-- The result of a fetch that has returned. -/
def result? (s : Simulation) : PendingFetch → Option FetchResult
  | .registered call =>
    match s.registry.calls[call]? with
    | some (.fetched result) => some result
    | _ => none
  | .owned slot call =>
    match s.registry.innerReply? slot call with
    | some (.fetched result) => some result
    | _ => none

/-- How an event of a holder is reported, if it is one that the database sees. -/
def eventText? (s : Simulation) (slot : Nat) (factory : Factory) : Event → Option String
  | .creating => if s.silent.contains slot then none else some "create"
  | .connecting => some "connect"
  | .executing _ => some ("execute " ++ factory.query ++ " " ++ toString factory.fetchSize)
  | .connectionCancelled _ => some "cancel"
  | .connectionClosed _ => some "close"
  | _ => none

/-- The events that have not been reported yet, sorted. -/
def newEvents (s : Simulation) : List String :=
  let texts := s.registry.slots.zipIdx.flatMap fun (slot, i) =>
    (slot.holder.log.drop ((s.reported[i]?).getD 0)).filterMap
      (s.eventText? i slot.holder.factory)
  texts.mergeSort

/-- Collects what is to be answered. -/
def answer (s : Simulation) (result : CommandResult) : CommandAnswer × Simulation :=
  let done := s.fetches.filterMap fun f =>
    (s.result? f.fetch).map fun result => { name := f.name, task := f.task, result }
  let fetches := s.fetches.filter fun f => (s.result? f.fetch).isNone
  ({ result, done, events := s.newEvents, size := s.registry.size
     pending := (fetches.map NamedFetch.name).mergeSort },
   { s with fetches, reported := s.registry.slots.map fun slot => slot.holder.log.length })

/-- Performs a command and answers it. Unless the command is to be answered at once,
everything that can go on without another command has gone on before. -/
def run (s : Simulation) (atOnce : Bool) (command : Command) : CommandAnswer × Simulation :=
  let (result, s) := s.command command
  (if atOnce then s else s.settle).answer result

/-- Answers a command that cannot be understood. -/
def reject (s : Simulation) (atOnce : Bool) : CommandAnswer × Simulation :=
  (if atOnce then s else s.settle).answer .invalid

end Simulation

end PagedQuery.Task
