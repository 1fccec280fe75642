import PagedQuery.Proofs.Task.Calls

/-!
# Idle checks

A fetch notes the time when it begins its batch and when it returns, and nothing
else does. An idle check that nobody is in the way of finds the holder lost if
it is closed, or if no fetch is in progress and the idle timeout has passed
since; then it closes the holder. Otherwise the check leaves no trace but its
own reply. Batch jobs and computations that go on meanwhile make no difference
to it, nor it to them.

* `Stage.touches`, `Holder.Step.lastTouched_eq`: when the time is noted;
* `Holder.Fetching`, `Holder.IsLost`: fetches in progress, and lost holders;
* `Holder.Beside`: a holder with a check on it beside the holder without one;
* `Holder.Checking`, `Holder.Checking.step`: the stages of a check.
-/

namespace PagedQuery.Task

/-! ## Times -/

/-- Whether a fetch at the stage notes the time in its next step: it begins a batch under the
fetch lock, or is about to return. -/
def Stage.touches : Stage → Bool
  | .fetchStart _ => true
  | .fetchTouch _ => true
  | _ => false

namespace Holder

variable {h h' g g' : Holder} {now c : Nat} {a : Action} {s s' : Stage}

theorem Step.lastTouched_eq (hstep : h.Step now a h') :
    h'.lastTouched = h.lastTouched ∨
      h'.lastTouched = now ∧ ∃ c s, a = .call c ∧ h.calls[c]? = some s ∧ s.touches = true := by
  cases hstep with
  | createFails hc | create hc | resume hc | start hc | startNothing hc | startClosed hc
  | touch hc => exact .inr ⟨rfl, _, _, rfl, hc, rfl⟩
  | job hj hjob => cases hjob <;> exact .inl rfl
  | worker hw hworker => cases hworker <;> exact .inl rfl
  | _ => exact .inl rfl

theorem Step.lastTouched_of_touches (hstep : h.Step now (.call c) h') (hc : h.calls[c]? = some s)
    (hs : s.touches = true) : h'.lastTouched = now := by
  cases hstep with
  | createFails hc' | create hc' | resume hc' | start hc' | startNothing hc' | startClosed hc'
  | touch hc' => rfl
  | abortJobs hc' | closeTask hc' | closeClosed hc' | closePrepared hc' =>
    cases Option.some.inj (hc.symm.trans hc')
    cases hs
  | _ =>
    cases Option.some.inj (hc.symm.trans ‹h.calls[_]? = some _›)
    cases hs

end Holder

/-- Whether the action is a step of a batch job or of a computation. -/
def Action.isBackground : Action → Bool
  | .job _ => true
  | .worker _ => true
  | _ => false

/-! ## Fetches in progress -/

def AfterClose.isFetching : AfterClose → Bool
  | .fetch _ => true
  | _ => false

/-- The stages of a fetch that has the fetch lock. -/
def Stage.isFetching : Stage → Bool
  | .fetchStart _ => true
  | .fetchWait .. => true
  | .fetchFinish .. => true
  | .fetchTouch _ => true
  | .fetchUnlock _ => true
  | .fetchPark _ => true
  | .fetchLeave => true
  | .close _ after => after.isFetching
  | .abortJobs _ _ after => after.isFetching
  | .cancelTask after => after.isFetching
  | .closeTask after => after.isFetching
  | _ => false

/-- The stages of an idle check that has reclaimed its holder or found it closed. -/
def Stage.reclaims : Stage → Bool
  | .abortJobs _ _ .check => true
  | .cancelTask .check => true
  | .closeTask .check => true
  | .checkUnlock => true
  | .returned (.checked true) => true
  | _ => false

/-- How many steps an idle check has left at most. -/
def Stage.checkRank : Stage → Nat
  | .checkBegin => 7
  | .checkInspect => 6
  | .checkDecide => 5
  | .abortJobs .. => 4
  | .cancelTask _ => 3
  | .closeTask _ => 2
  | .checkUnlock => 1
  | _ => 0

namespace Holder

variable {h h' g g' : Holder} {now c : Nat} {a : Action} {s s' : Stage}

/-- A fetch has been let in and has not returned. -/
def Fetching (h : Holder) : Prop :=
  ∃ s ∈ h.calls, s.isFetching = true

/-- The holder is closed, or has no fetch in progress and was not touched for its timeout. -/
def IsLost (now : Nat) (h : Holder) : Prop :=
  h.lifecycle = .closed ∨ ¬ h.Fetching ∧ h.idleTimeout ≤ now - h.lastTouched

/-- What an idle check goes by: the holder is closed, or nobody has the fetch lock and the idle
timeout has passed. -/
def Reclaimable (now : Nat) (h : Holder) : Prop :=
  h.lifecycle = .closed ∨ h.fetchLock = none ∧ h.idleTimeout ≤ now - h.lastTouched

/-- Whoever has the fetch lock of an open holder is a fetch, as long as no idle check has the
state lock. -/
theorem Honest.isFetching_of_holdsFetchLock (hhonest : h.Honest) (hfree : h.stateLock = none)
    (hopen : h.lifecycle ≠ .closed) (hc : h.calls[c]? = some s) (hs : s.holdsFetchLock = true) :
    s.isFetching = true := by
  have hmem := List.mem_of_getElem? hc
  have hnot (hfollows : s.followsClose = true) : s.isFetching = true :=
    absurd (Lifecycle.state_eq_closed_iff.mp (hhonest.closed s hmem hfollows)) hopen
  cases s with
  | close cancel after =>
    cases after with
    | fetch result => rfl
    | check => cases hhonest.coherent.calls _ hmem
    | cancel => cases hs
  | abortJobs e cancel after | cancelTask after | closeTask after => exact hnot rfl
  | checkDecide =>
    have hheld := (hhonest.sound.locked.state c).mpr ⟨_, hc, rfl⟩
    cases hfree.symm.trans hheld
  | checkUnlock => exact hnot rfl
  | fetchStart | fetchWait | fetchFinish | fetchTouch | fetchUnlock | fetchPark | fetchLeave => rfl
  | _ => cases hs

theorem Stage.holdsFetchLock_of_isFetching (hs : s.isFetching = true) :
    s.holdsFetchLock = true := by
  cases s with
  | close cancel after | abortJobs e cancel after | cancelTask after | closeTask after =>
    cases after with
    | fetch result => rfl
    | check | cancel => cases hs
  | fetchStart | fetchWait | fetchFinish | fetchTouch | fetchUnlock | fetchPark | fetchLeave => rfl
  | _ => cases hs

theorem Honest.fetchLock_eq_none_iff (hhonest : h.Honest) (hfree : h.stateLock = none)
    (hopen : h.lifecycle ≠ .closed) : h.fetchLock = none ↔ ¬ h.Fetching := by
  constructor
  · rintro hlock ⟨s, hmem, hs⟩
    obtain ⟨c, hc⟩ := List.getElem?_of_mem hmem
    have hheld := (hhonest.sound.locked.fetch c).mpr ⟨s, hc, Stage.holdsFetchLock_of_isFetching hs⟩
    cases hlock.symm.trans hheld
  · intro hnone
    cases hlock : h.fetchLock with
    | none => rfl
    | some c =>
      obtain ⟨s, hc, hs⟩ := (hhonest.sound.locked.fetch c).mp hlock
      have hfetching := hhonest.isFetching_of_holdsFetchLock hfree hopen hc hs
      exact absurd ⟨s, List.mem_of_getElem? hc, hfetching⟩ hnone

/-- An idle check goes by what says whether the holder is lost. -/
theorem Honest.isLost_iff (hhonest : h.Honest) (hfree : h.stateLock = none) :
    h.IsLost now ↔ h.Reclaimable now := by
  by_cases hclosed : h.lifecycle = .closed
  · exact ⟨fun _ => .inl hclosed, fun _ => .inl hclosed⟩
  · rw [Reclaimable, hhonest.fetchLock_eq_none_iff hfree hclosed]
    exact Iff.rfl

/-! ## Work that goes on meanwhile -/

theorem JobStep.eq_some {j : Nat} {job : Job} (hstep : h.JobStep j job h') :
    h.jobStep j job = some h' := by
  cases hstep with
  | computed hworker | computeFailed hworker => simp only [jobStep, hworker]
  | read hread | readFailed hread => simp only [jobStep, hread]
  | crash hcrash | goOn hcrash => simp [jobStep, hcrash, batchOf]
  | chain hcrash hnext | drain hcrash hnext =>
    simp [jobStep, hcrash, hnext, spawnWorker, setJob, batchOf]

theorem WorkerStep.eq_some {w : Nat} {worker : Worker} (hstep : h.WorkerStep w worker h') :
    h.workerStep w worker = some h' := by
  cases hstep with
  | reuse hopen => simp only [workerStep, hopen]
  | connect hopen hconnect => simp [workerStep, hopen, record, hconnect]
  | connectFails hopen hconnect => simp [workerStep, hopen, record, hconnect]
  | execute => rfl
  | executed hexecute | executeFails hexecute => simp only [workerStep, hexecute]
  | opened => rfl

/-- Nothing is different but jobs, computations, the session and the log. -/
def OnlyWork (g g' : Holder) : Prop :=
  g' = { g with jobs := g'.jobs, workers := g'.workers, session := g'.session, log := g'.log }

/-- The holder `h` is as `g` is, but for the locks, further calls and the log. -/
def Beside (g h : Holder) (fetchLock stateLock : Option Nat) (further : List Stage) : Prop :=
  h = { g with fetchLock, stateLock, calls := g.calls ++ further, log := h.log }

theorem Step.onlyWork (hstep : g.Step now a g') (ha : a.isBackground = true) : g.OnlyWork g' := by
  cases hstep with
  | job hj hjob => cases hjob <;> rfl
  | worker hw hworker => cases hworker <;> rfl
  | _ => cases ha

/-- Work goes on alike beside a holder that has the same work. -/
theorem Beside.background {fetchLock stateLock : Option Nat} {further : List Stage}
    (hbeside : g.Beside h fetchLock stateLock further) (ha : a.isBackground = true)
    (hstep : h.step now a = some h') :
    ∃ g', g.step now a = some g' ∧ g'.Beside h' fetchLock stateLock further := by
  unfold Beside at hbeside
  generalize h.log = log at hbeside
  subst hbeside
  cases a with
  | job j =>
    obtain ⟨job, hj, hjob⟩ := Option.bind_eq_some_iff.mp hstep
    have hsame {g' : Holder} (hstep' : g.JobStep j job g') : g.step now (.job j) = some g' :=
      Option.bind_eq_some_iff.mpr ⟨job, hj, hstep'.eq_some⟩
    cases jobStep_of_eq_some hjob with
    | computed hworker => exact ⟨_, hsame (.computed hworker), rfl⟩
    | computeFailed hworker => exact ⟨_, hsame (.computeFailed hworker), rfl⟩
    | read hread => exact ⟨_, hsame (.read hread), rfl⟩
    | readFailed hread => exact ⟨_, hsame (.readFailed hread), rfl⟩
    | crash hcrash => exact ⟨_, hsame (.crash hcrash), rfl⟩
    | goOn hcrash => exact ⟨_, hsame (.goOn hcrash), rfl⟩
    | chain hcrash hnext => exact ⟨_, hsame (.chain hcrash hnext), rfl⟩
    | drain hcrash hnext => exact ⟨_, hsame (.drain hcrash hnext), rfl⟩
  | worker w =>
    obtain ⟨worker, hw, hworker⟩ := Option.bind_eq_some_iff.mp hstep
    have hsame {g' : Holder} (hstep' : g.WorkerStep w worker g') :
        g.step now (.worker w) = some g' :=
      Option.bind_eq_some_iff.mpr ⟨worker, hw, hstep'.eq_some⟩
    cases workerStep_of_eq_some hworker with
    | reuse hopen => exact ⟨_, hsame (.reuse hopen), rfl⟩
    | connect hopen hconnect => exact ⟨_, hsame (.connect hopen hconnect), rfl⟩
    | connectFails hopen hconnect => exact ⟨_, hsame (.connectFails hopen hconnect), rfl⟩
    | execute => exact ⟨_, hsame .execute, rfl⟩
    | executed hexecute => exact ⟨_, hsame (.executed hexecute), rfl⟩
    | executeFails hexecute => exact ⟨_, hsame (.executeFails hexecute), rfl⟩
    | opened => exact ⟨_, hsame .opened, rfl⟩
  | _ => cases ha

/-! ## The course of a check -/

/-- How far a check with number `k` is that has not found the holder lost: who has the fetch lock
and the state lock, and the stage of the check. The holder was `h₀` before. -/
inductive Inspects (now : Nat) (h₀ : Holder) (k : Nat) :
    Option Nat → Option Nat → Stage → Prop where
  | begin : Inspects now h₀ k h₀.fetchLock none .checkBegin
  | inspect : Inspects now h₀ k h₀.fetchLock (some k) .checkInspect
  | decide (hopen : h₀.lifecycle.state ≠ .closed) (hlock : h₀.fetchLock = none) :
      Inspects now h₀ k (some k) (some k) .checkDecide
  | keep (hkept : ¬ h₀.Reclaimable now) :
      Inspects now h₀ k h₀.fetchLock none (.returned (.checked false))

/-- A check with number `k` on the holder, which was `h₀` before and has become `h` by the check
and by the work `as`. -/
inductive Checking (now : Nat) (h₀ : Holder) (as : List (Nat × Action)) (h : Holder) (k : Nat)
    (s : Stage) : Prop where
  /-- The holder is beside what the work alone has made of it. -/
  | inspecting {g : Holder} {fetchLock stateLock : Option Nat} (hwork : h₀.run as = some g)
      (honly : h₀.OnlyWork g) (hk : k = h₀.calls.length)
      (hbeside : g.Beside h fetchLock stateLock [s])
      (hinspects : Inspects now h₀ k fetchLock stateLock s)
  | reclaiming (hlost : h₀.Reclaimable now) (hclosed : h.lifecycle = .closed)
      (hk : h.calls[k]? = some s) (hs : s.reclaims = true)

section

variable {h₀ : Holder} {as : List (Nat × Action)} {k : Nat} {fetchLock stateLock : Option Nat}

theorem Beside.getElem?_calls (hbeside : g.Beside h fetchLock stateLock [s]) :
    h.calls[g.calls.length]? = some s := by
  have hcalls : h.calls = g.calls ++ [s] := by rw [hbeside]
  rw [hcalls, List.getElem?_append_right (Nat.le_refl _), Nat.sub_self]
  rfl

/-- The check goes on. -/
theorem Beside.move {fetchLock' stateLock' : Option Nat}
    (hbeside : g.Beside h fetchLock stateLock [s])
    (hmove : h' = { h with
      fetchLock := fetchLock', stateLock := stateLock'
      calls := h.calls.set g.calls.length s', log := h'.log }) :
    g.Beside h' fetchLock' stateLock' [s'] := by
  unfold Beside at hbeside ⊢
  generalize h.log = log at hbeside
  subst hbeside
  rw [hmove]
  simp

/-- What the check looks at is as it was before. -/
theorem Beside.sees {further : List Stage} (hbeside : g.Beside h fetchLock stateLock further)
    (honly : h₀.OnlyWork g) :
    h.lifecycle = h₀.lifecycle ∧ h.lastTouched = h₀.lastTouched ∧
      h.idleTimeout = h₀.idleTimeout ∧ h.fetchLock = fetchLock ∧ h.stateLock = stateLock := by
  rw [hbeside, honly]
  exact ⟨rfl, rfl, rfl, rfl, rfl⟩

theorem OnlyWork.trans {g g' : Holder} (hfirst : h₀.OnlyWork g) (hsecond : g.OnlyWork g') :
    h₀.OnlyWork g' := by
  unfold OnlyWork at hfirst hsecond ⊢
  rw [hsecond, hfirst]

theorem Checking.getElem?_calls (hcheck : Checking now h₀ as h k s) : h.calls[k]? = some s := by
  cases hcheck with
  | inspecting hwork honly hk hbeside hinspects =>
    have hcalls := congrArg Holder.calls honly
    rw [hk, ← hcalls]
    exact hbeside.getElem?_calls
  | reclaiming hlost hclosed hk hs => exact hk

/-- The work that goes on meanwhile makes no difference to the check. -/
theorem Checking.background (hcheck : Checking now h₀ as h k s) (ha : a.isBackground = true)
    (hstep : h.step now a = some h') : Checking now h₀ (as ++ [(now, a)]) h' k s := by
  cases hcheck with
  | inspecting hwork honly hk hbeside hinspects =>
    obtain ⟨g', hstep', hbeside'⟩ := hbeside.background ha hstep
    have honly' := (step_of_eq_some hstep').onlyWork ha
    exact .inspecting (run_concat hwork hstep') (honly.trans honly') hk hbeside' hinspects
  | reclaiming hlost hclosed hk hs =>
    have honly := (step_of_eq_some hstep).onlyWork ha
    exact .reclaiming hlost ((congrArg Holder.lifecycle honly).trans hclosed)
      ((congrArg (fun h => h.calls[k]?) honly).trans hk) hs

/-- A check that has found the holder closed, or closes it, goes on to say so. -/
theorem Step.reclaiming (hstep : h.Step now (.call k) h') (hclosed : h.lifecycle = .closed)
    (hk : h.calls[k]? = some s) (hs : s.reclaims = true) :
    ∃ s', h'.lifecycle = .closed ∧ h'.calls[k]? = some s' ∧ s'.reclaims = true ∧
      s'.checkRank < s.checkRank := by
  have hat {s' : Stage} : (h.calls.set k s')[k]? = some s' := getElem?_set_self_of_some hk
  cases hstep with
  | @abortJobs c e cancel after hc =>
    cases Option.some.inj (hk.symm.trans hc)
    cases after with
    | check =>
      cases cancel with
      | true => exact ⟨_, hclosed, hat, rfl, by simp [Stage.checkRank]⟩
      | false => exact ⟨_, hclosed, hat, rfl, by simp [Stage.checkRank]⟩
    | fetch result | cancel => cases hs
  | @cancelTask c after hc =>
    cases Option.some.inj (hk.symm.trans hc)
    cases after with
    | check => exact ⟨_, hclosed, hat, rfl, by decide⟩
    | fetch result | cancel => cases hs
  | @closeTask c after hc =>
    cases Option.some.inj (hk.symm.trans hc)
    cases after with
    | check => exact ⟨_, hclosed, hat, rfl, by decide⟩
    | fetch result | cancel => cases hs
  | checkUnlock hc =>
    cases Option.some.inj (hk.symm.trans hc)
    exact ⟨_, hclosed, hat, rfl, by decide⟩
  | _ =>
    cases Option.some.inj (hk.symm.trans ‹h.calls[_]? = some _›)
    cases hs

/-- A check that has not found the holder lost goes on, and finds it so if it is. -/
theorem Inspects.step (hinspects : Inspects now h₀ k fetchLock stateLock s)
    (hwork : h₀.run as = some g) (honly : h₀.OnlyWork g) (hlength : k = h₀.calls.length)
    (hbeside : g.Beside h fetchLock stateLock [s]) (hstep : h.Step now (.call k) h') :
    ∃ s', Checking now h₀ as h' k s' ∧ s'.checkRank < s.checkRank := by
  have hcalls : g.calls.length = k := by rw [congrArg Holder.calls honly, hlength]
  have hk : h.calls[k]? = some s := hcalls ▸ hbeside.getElem?_calls
  have hat {s' : Stage} : (h.calls.set k s')[k]? = some s' := getElem?_set_self_of_some hk
  obtain ⟨hlife, hlast, htimeout, hfetch, hstate⟩ := hbeside.sees honly
  have hgoes {fetchLock' stateLock' : Option Nat} {s' : Stage}
      (hinspects' : Inspects now h₀ k fetchLock' stateLock' s')
      (hmove : h' = { h with
        fetchLock := fetchLock', stateLock := stateLock'
        calls := h.calls.set k s', log := h'.log }) : Checking now h₀ as h' k s' :=
    .inspecting hwork honly hlength (hbeside.move (hcalls ▸ hmove)) hinspects'
  cases hinspects with
  | begin =>
    cases hstep with
    | checkBusy hc hlock => cases hstate.symm.trans hlock
    | checkBegin hc hfree => exact ⟨_, hgoes .inspect (by rw [← hfetch]; rfl), by decide⟩
    | _ => cases hk.symm.trans ‹h.calls[_]? = some _›
  | inspect =>
    cases hstep with
    | checkClosed hc hclosed =>
      exact ⟨_, .reclaiming (.inl (hlife.symm.trans hclosed)) hclosed hat rfl, by decide⟩
    | checkFetching hc hopen hlock =>
      have hkept : ¬ h₀.Reclaimable now := by
        rintro (hclosed | ⟨hnone, -⟩)
        · rw [hlife, hclosed] at hopen
          exact hopen rfl
        · cases (hfetch.trans hnone).symm.trans hlock
      exact ⟨_, hgoes (.keep hkept) (by rw [← hfetch]; rfl), by decide⟩
    | checkInspect hc hopen hlock =>
      rw [hlife] at hopen
      exact ⟨_, hgoes (.decide hopen (hfetch.symm.trans hlock)) (by rw [← hstate]; rfl),
        by decide⟩
    | _ => cases hk.symm.trans ‹h.calls[_]? = some _›
  | decide hopen hlock =>
    cases hstep with
    | keep hc hyoung =>
      have hkept : ¬ h₀.Reclaimable now := by
        rintro (hclosed | ⟨-, hidle⟩)
        · rw [hclosed] at hopen
          exact hopen rfl
        · rw [hlast, htimeout] at hyoung
          omega
      exact ⟨_, hgoes (.keep hkept) (by rw [hlock]; rfl), by decide⟩
    | reclaimClosed hc hidle hclosed =>
      rw [← hlife, hclosed] at hopen
      exact absurd rfl hopen
    | reclaimPrepared hc hidle | reclaimExecuted hc hidle =>
      rw [hlast, htimeout] at hidle
      exact ⟨_, .reclaiming (.inr ⟨hlock, hidle⟩) rfl hat rfl, by simp [Stage.checkRank]⟩
    | _ => cases hk.symm.trans ‹h.calls[_]? = some _›
  | keep hkept =>
    cases hstep with
    | _ => cases hk.symm.trans ‹h.calls[_]? = some _›

/-- A check that goes on comes to an end. -/
theorem Checking.step (hcheck : Checking now h₀ as h k s)
    (hstep : h.step now (.call k) = some h') :
    ∃ s', Checking now h₀ as h' k s' ∧ s'.checkRank < s.checkRank := by
  have hstep' := step_of_eq_some hstep
  cases hcheck with
  | inspecting hwork honly hlength hbeside hinspects =>
    exact hinspects.step hwork honly hlength hbeside hstep'
  | reclaiming hlost hclosed hk hs =>
    obtain ⟨s', hclosed', hk', hs', hless⟩ := hstep'.reclaiming hclosed hk hs
    exact ⟨s', .reclaiming hlost hclosed' hk' hs', hless⟩

/-- A check that is over has told whether the holder is lost. -/
theorem Checking.eq_returned (hcheck : Checking now h₀ as h k s) (hs : s.isReturned = true) :
    ∃ found, s = .returned (.checked found) := by
  cases hcheck with
  | inspecting hwork honly hk hbeside hinspects =>
    cases hinspects with
    | begin | inspect | decide => cases hs
    | keep hkept => exact ⟨false, rfl⟩
  | reclaiming hlost hclosed hk hreclaims =>
    cases s with
    | returned reply =>
      cases reply with
      | checked found => exact ⟨found, rfl⟩
      | _ => cases hreclaims
    | _ => cases hs

/-- A check that is not at its end can go on. -/
theorem Checking.exists_step (hcheck : Checking now h₀ as h k s) (hs : s.isReturned = false) :
    ∃ h', h.step now (.call k) = some h' := by
  have hcall {h' : Holder} (hcall : h.callStep now k s = some h') :
      ∃ h', h.step now (.call k) = some h' :=
    ⟨h', Option.bind_eq_some_iff.mpr ⟨s, hcheck.getElem?_calls, hcall⟩⟩
  have hstages : 0 < s.checkRank := by
    cases hcheck with
    | inspecting hwork honly hk hbeside hinspects =>
      cases hinspects with
      | begin | inspect | decide => decide
      | keep => cases hs
    | reclaiming hlost hclosed hk hreclaims =>
      cases s with
      | abortJobs e cancel after => exact Nat.zero_lt_succ _
      | cancelTask after | closeTask after | checkUnlock => exact Nat.zero_lt_succ _
      | returned reply => cases hs
      | _ => cases hreclaims
  cases s with
  | checkBegin =>
    cases hlock : h.stateLock with
    | none | some owner =>
      apply hcall
      simp only [callStep, hlock]
      rfl
  | checkInspect | checkDecide | checkUnlock => exact hcall rfl
  | abortJobs e cancel after | cancelTask after | closeTask after => exact hcall rfl
  | _ => cases hstages

end

end Holder

end PagedQuery.Task
