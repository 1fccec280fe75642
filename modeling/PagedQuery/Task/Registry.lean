import PagedQuery.Task.Holder

/-!
# The task registry

A registry maps names to holders and serves fetch, cancel and status calls
under these names. Its map has a lock of its own; a section under it is one
step here, and between two such sections a call works on a holder that it
looked up, which may have left the map meanwhile. Idle holders are reclaimed
by sweeps, which a reaper begins once in every period.

Holders that were made outside of the registry, each kept by one owner, run on
the same clock (`Slot.owned`).

* `Registry`, `Registry.Stage`: the state, and the points between the steps of a call;
* `Registry.step`: one action, `none` when it is not possible.
-/

namespace PagedQuery.Task

/-- The settings of a registry; times are in milliseconds. -/
structure EngineConfig where
  reaperInterval : Nat
  idleTimeout : Nat
  defaultFetchSize : Nat
  defaultFetchTimeout : Nat
deriving DecidableEq

namespace EngineConfig

def default : EngineConfig :=
  { reaperInterval := 10000
    idleTimeout := 60000
    defaultFetchSize := 1000
    defaultFetchTimeout := 30000 }

/-- The period of the reaper, which is never zero. -/
def reaperPeriod (config : EngineConfig) : Nat :=
  max config.reaperInterval 1

end EngineConfig

/-- A holder with the name it was made under. -/
structure Registry.Slot (Id : Type) where
  id : Id
  holder : Holder
  /-- Whether someone outside of the registry keeps the holder. -/
  owned : Bool

/-- The point a registry call has reached. `slot` and `call` name the holder and the call on
it that is waited for. -/
inductive Registry.Stage (Id : Type) where
  /-- Look the task up. -/
  | fetchLookup (id : Id) (timeout : Nat)
  | fetchWait (slot call : Nat)
  /-- Remove the finished task from the map. -/
  | fetchRemove (slot : Nat) (result : FetchResult)
  /-- Take the task out of the map. -/
  | cancelRemove (id : Id)
  | cancelWait (slot call : Nat)
  /-- Copy the map. -/
  | sweepBegin
  /-- Check the holders that are left. -/
  | sweepNext (left lost : List Nat)
  | sweepWait (slot call : Nat) (left lost : List Nat)
  /-- Remove the lost holders from the map. -/
  | sweepRemove (lost : List Nat)
  /-- Stop the reaper and empty the map. -/
  | shutdownBegin
  | shutdownNext (left : List Nat)
  | shutdownWait (slot call : Nat) (left : List Nat)
  | statusLookup (id : Id)
  | statusWait (slot call : Nat)
  | fetched (result : FetchResult)
  | abandoned
  | cancelled
  | swept (removed : Nat)
  | stopped
  | status (found : Option (Binary64 × TaskState))

structure Registry (Id : Type) where
  config : EngineConfig
  clock : Nat
  /-- Every holder ever made, in order. -/
  slots : List (Registry.Slot Id)
  /-- The map from names to holders. -/
  entries : List (Id × Nat)
  calls : List (Registry.Stage Id)
  /-- When the reaper runs next; `none` once it is stopped. -/
  reaperDue : Option Nat

namespace Registry

variable {Id : Type} [DecidableEq Id]

inductive Operation (Id : Type) where
  | fetch (id : Id) (timeout : Nat)
  | cancel (id : Id)
  | sweep
  | shutdown
  | status (id : Id)

inductive Action (Id : Type) where
  /-- The clock moves on. -/
  | tick (ms : Nat)
  /-- Registers a task. -/
  | put (id : Id) (factory : Factory)
  /-- Makes a holder outside of the registry. -/
  | own (id : Id) (factory : Factory) (idleTimeout : Nat)
  /-- The owner gives a holder up. -/
  | disown (slot : Nat)
  /-- The owner of a holder calls it. -/
  | ask (slot : Nat) (operation : Task.Operation)
  /-- A new call. -/
  | begin (operation : Operation Id)
  /-- The next step of a call. -/
  | call (index : Nat)
  /-- The caller drops a fetch. -/
  | abandon (index : Nat)
  /-- A step inside a holder. -/
  | inner (slot : Nat) (action : Task.Action)
  /-- The reaper begins a sweep. -/
  | reap
  /-- A holder that nobody can reach any more is closed. -/
  | drop (slot : Nat)

/-- An empty registry at time 0. -/
def start (config : EngineConfig) : Registry Id :=
  { config, clock := 0, slots := [], entries := [], calls := []
    reaperDue := some config.reaperPeriod }

/-! ## The map -/

def lookup? (r : Registry Id) (id : Id) : Option Nat :=
  r.entries.lookup id

/-- The number of registered tasks. -/
def size (r : Registry Id) : Nat :=
  r.entries.length

/-- Removes an entry if it still leads to that holder. -/
def removeCurrent (r : Registry Id) (slot : Nat) : Registry Id :=
  { r with entries := r.entries.filter fun entry => entry.2 ≠ slot }

/-- The holders in the map. -/
def registered (r : Registry Id) : List Nat :=
  r.entries.map Prod.snd

/-! ## Holders -/

def holder? (r : Registry Id) (slot : Nat) : Option Holder :=
  r.slots[slot]?.map Slot.holder

def setHolder (r : Registry Id) (slot : Nat) (holder : Holder) : Registry Id :=
  { r with slots := r.slots.modify slot fun s => { s with holder } }

def addSlot (r : Registry Id) (id : Id) (factory : Factory) (idleTimeout : Nat) (owned : Bool) :
    Registry Id :=
  { r with slots := r.slots ++ [{ id, holder := Holder.new factory idleTimeout r.clock, owned }] }

/-- Begins a call on a holder and gives its number. -/
def beginInner? (r : Registry Id) (slot : Nat) (operation : Task.Operation) :
    Option (Nat × Registry Id) := do
  let holder ← r.holder? slot
  let next ← holder.step r.clock (.begin operation)
  some (holder.calls.length, r.setHolder slot next)

/-- The reply of a call on a holder, once it has returned. -/
def innerReply? (r : Registry Id) (slot call : Nat) : Option Reply :=
  (r.holder? slot).bind fun holder => holder.reply? call

/-! ## Calls -/

def goTo (r : Registry Id) (c : Nat) (stage : Stage Id) : Registry Id :=
  { r with calls := r.calls.set c stage }

/-- Whether a fetch leaves its task finished. -/
def isFinal : FetchResult → Bool
  | .ok batch => !batch.hasNext
  | .error error => error.isTerminal

/-- The next step of a call. -/
def callStep (r : Registry Id) (c : Nat) : Stage Id → Option (Registry Id)
  | .fetchLookup id timeout =>
    match r.lookup? id with
    | none => some (r.goTo c (.fetched (.error .notFound)))
    | some slot => do
      let (call, r) ← r.beginInner? slot (.fetch timeout)
      some (r.goTo c (.fetchWait slot call))
  | .fetchWait slot call => do
    match ← r.innerReply? slot call with
    | .fetched result =>
      some (r.goTo c (if isFinal result then .fetchRemove slot result else .fetched result))
    | .abandoned => some (r.goTo c .abandoned)
    | _ => none
  | .fetchRemove slot result => some ((r.removeCurrent slot).goTo c (.fetched result))
  | .cancelRemove id =>
    match r.lookup? id with
    | none => some (r.goTo c .cancelled)
    | some slot => do
      let (call, r) ← (r.removeCurrent slot).beginInner? slot .cancel
      some (r.goTo c (.cancelWait slot call))
  | .cancelWait slot call => do
    let _ ← r.innerReply? slot call
    some (r.goTo c .cancelled)
  | .sweepBegin => some (r.goTo c (.sweepNext r.registered []))
  | .sweepNext [] lost => some (r.goTo c (.sweepRemove lost))
  | .sweepNext (slot :: left) lost => do
    let (call, r) ← r.beginInner? slot .check
    some (r.goTo c (.sweepWait slot call left lost))
  | .sweepWait slot call left lost => do
    match ← r.innerReply? slot call with
    | .checked true => some (r.goTo c (.sweepNext left (lost ++ [slot])))
    | .checked false => some (r.goTo c (.sweepNext left lost))
    | _ => none
  | .sweepRemove lost => some ((lost.foldl removeCurrent r).goTo c (.swept lost.length))
  | .shutdownBegin =>
    some ({ r with entries := [], reaperDue := none }.goTo c (.shutdownNext r.registered))
  | .shutdownNext [] => some (r.goTo c .stopped)
  | .shutdownNext (slot :: left) => do
    let (call, r) ← r.beginInner? slot .cancel
    some (r.goTo c (.shutdownWait slot call left))
  | .shutdownWait slot call left => do
    let _ ← r.innerReply? slot call
    some (r.goTo c (.shutdownNext left))
  | .statusLookup id =>
    match r.lookup? id with
    | none => some (r.goTo c (.status none))
    | some slot => do
      let (call, r) ← r.beginInner? slot .status
      some (r.goTo c (.statusWait slot call))
  | .statusWait slot call => do
    match ← r.innerReply? slot call with
    | .status progress state => some (r.goTo c (.status (some (progress, state))))
    | _ => none
  | .fetched _ => none
  | .abandoned => none
  | .cancelled => none
  | .swept _ => none
  | .stopped => none
  | .status _ => none

/-- A fetch can be dropped before its first step and while its holder waits. -/
def abandonStep (r : Registry Id) (c : Nat) : Stage Id → Option (Registry Id)
  | .fetchLookup .. => some (r.goTo c .abandoned)
  | .fetchWait slot call => do
    let holder ← (← r.holder? slot).step r.clock (.abandon call)
    some (r.setHolder slot holder)
  | _ => none

def firstStage : Operation Id → Stage Id
  | .fetch id timeout => .fetchLookup id timeout
  | .cancel id => .cancelRemove id
  | .sweep => .sweepBegin
  | .shutdown => .shutdownBegin
  | .status id => .statusLookup id

/-- Whether a call still works on a holder. -/
def Stage.uses (slot : Nat) : Stage Id → Bool
  | .fetchWait slot' _ => slot = slot'
  | .fetchRemove slot' _ => slot = slot'
  | .cancelWait slot' _ => slot = slot'
  | .sweepNext left lost => left.contains slot || lost.contains slot
  | .sweepWait slot' _ left lost => slot = slot' || left.contains slot || lost.contains slot
  | .sweepRemove lost => lost.contains slot
  | .shutdownNext left => left.contains slot
  | .shutdownWait slot' _ left => slot = slot' || left.contains slot
  | .statusWait slot' _ => slot = slot'
  | _ => false

/-- Whether nobody can reach a holder any more. -/
def isUnreachable (r : Registry Id) (slot : Nat) : Bool :=
  match r.slots[slot]? with
  | none => false
  | some s =>
    !s.owned && !r.registered.contains slot && !r.calls.any (Stage.uses slot) &&
      s.holder.calls.all fun
        | .returned _ => true
        | _ => false

/-! ## Steps -/

/-- Whether an action inside a holder is one of its own steps, and not a new call. -/
def isInnerStep : Task.Action → Bool
  | .begin _ => false
  | .abandon _ => false
  | _ => true

def step (r : Registry Id) : Action Id → Option (Registry Id)
  | .tick ms => some { r with clock := r.clock + ms }
  | .put id factory =>
    match r.lookup? id with
    | some _ => none
    | none =>
      some { r.addSlot id factory r.config.idleTimeout false with
        entries := r.entries ++ [(id, r.slots.length)] }
  | .own id factory idleTimeout => some (r.addSlot id factory idleTimeout true)
  | .disown slot => some { r with slots := r.slots.modify slot fun s => { s with owned := false } }
  | .ask slot operation => do
    let s ← r.slots[slot]?
    if s.owned then (r.beginInner? slot operation).map Prod.snd else none
  | .begin operation => some { r with calls := r.calls ++ [firstStage operation] }
  | .call c => r.calls[c]?.bind (r.callStep c)
  | .abandon c => r.calls[c]?.bind (r.abandonStep c)
  | .inner slot action => do
    let s ← r.slots[slot]?
    if isInnerStep action || s.owned then
      some (r.setHolder slot (← s.holder.step r.clock action))
    else none
  | .reap => do
    let due ← r.reaperDue
    if due ≤ r.clock then
      let period := r.config.reaperPeriod
      some { r with
        reaperDue := some ((r.clock / period + 1) * period)
        calls := r.calls ++ [.sweepBegin] }
    else none
  | .drop slot =>
    if r.isUnreachable slot then (r.beginInner? slot .cancel).map Prod.snd else none

/-- Registers a task under a name that is free. -/
def put (r : Registry Id) (id : Id) (factory : Factory) : Except TaskError (Registry Id) :=
  match r.step (.put id factory) with
  | some r => .ok r
  | none => .error .duplicateTask

end Registry

end PagedQuery.Task
