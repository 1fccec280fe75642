import PagedQuery.Proofs.Task.Jobs
import PagedQuery.Task.Registry

/-!
# Replies

What a call says when it returns is true of its holder. A fetch that ends its
task, a cancel, and an idle check that reports a lost task return only from a
closed holder. A fetch that is refused never had the fetch lock, and one that
has the lock and returns a batch with more to come has not closed anything.

* `Stage.isCoherent`, `Job.isCoherent`: results that fit the place where they are;
* `Stage.followsClose`: the stages that a call reaches only once the holder is closed;
* `Holder.Honest`, `Holder.run_honest`: stages and results are in order in every run.
-/

namespace PagedQuery.Task

/-! ## Results in their places -/

/-- Whether a fetch that has the fetch lock may return the result: a batch, or an error that ends
the task. -/
def isAnswer : FetchResult → Bool
  | .ok _ => true
  | .error error => error.isTerminal

/-- What a call says after closing the holder, if it says something: a fetch a result that ends
the task. -/
def AfterClose.isCoherent : AfterClose → Bool
  | .fetch result => Registry.isFinal result
  | .check => true
  | .cancel => true

/-- Whether a batch says that there is more exactly if it comes with the source of the next. -/
def isExact (batch : Batch) (next : Option RowSource) : Bool :=
  batch.hasNext == next.isSome

def Stage.isCoherent : Stage → Bool
  | .fetchFinish batch next => isExact batch next
  | .fetchTouch result => isAnswer result
  | .fetchUnlock result => isAnswer result
  -- an idle check goes on from the section in which it reclaims
  | .close _ .check => false
  | .close _ after => after.isCoherent
  | .abortJobs _ _ after => after.isCoherent
  | .cancelTask after => after.isCoherent
  | .closeTask after => after.isCoherent
  | _ => true

def Job.isCoherent : Job → Bool
  | .finished (.ready batch next) => isExact batch next
  | _ => true

/-- Whether a call reaches the stage only once the holder is closed. -/
def Stage.followsClose : Stage → Bool
  | .fetchTouch result => Registry.isFinal result
  | .fetchUnlock result => Registry.isFinal result
  | .abortJobs .. => true
  | .cancelTask _ => true
  | .closeTask _ => true
  | .checkUnlock => true
  | .returned (.fetched result) => Registry.isFinal result
  | .returned (.checked lost) => lost
  | .returned .cancelled => true
  | _ => false

theorem isAnswer_of_isFinal {result : FetchResult} (hfinal : Registry.isFinal result = true) :
    isAnswer result = true := by
  cases result with
  | ok batch => rfl
  | error error => exact hfinal

theorem isFinal_of_isExact {batch : Batch} {next : Option RowSource}
    (hexact : isExact batch next = true) : Registry.isFinal (.ok batch) = next.isNone := by
  have heq : batch.hasNext = next.isSome := by simpa [isExact] using hexact
  show (!batch.hasNext) = next.isNone
  rw [heq]
  cases next <;> rfl

theorem AfterClose.isCoherent_stage {after : AfterClose} (hcoherent : after.isCoherent = true) :
    after.stage.isCoherent = true := by
  cases after with
  | fetch result => exact isAnswer_of_isFinal hcoherent
  | check => rfl
  | cancel => rfl

theorem Stage.isCoherent_close {cancel : Bool} {after : AfterClose}
    (hcoherent : (Stage.close cancel after).isCoherent = true) : after.isCoherent = true := by
  cases after with
  | fetch result => exact hcoherent
  | check => rfl
  | cancel => rfl

theorem Lifecycle.state_eq_closed_iff {l : Lifecycle} : l.state = .closed ↔ l = .closed := by
  cases l with
  | prepared => exact ⟨nofun, nofun⟩
  | executed e => exact ⟨nofun, nofun⟩
  | closed => exact ⟨fun _ => rfl, fun _ => rfl⟩

namespace Holder

theorem reply?_eq_some_iff {h : Holder} {c : Nat} {reply : Reply} :
    h.reply? c = some reply ↔ h.calls[c]? = some (.returned reply) := by
  unfold reply?
  split
  · rename_i reply' hc
    rw [hc, Option.some_inj, Option.some_inj]
    exact ⟨congrArg Stage.returned, Stage.returned.inj⟩
  · rename_i hnone
    exact ⟨nofun, fun hc => absurd hc (hnone reply)⟩

/-- Every result is in a place that it fits. -/
structure Coherent (h : Holder) : Prop where
  calls : ∀ s ∈ h.calls, s.isCoherent = true
  jobs : ∀ job ∈ h.jobs, job.isCoherent = true

theorem coherent_new (factory : Factory) (idleTimeout now : Nat) :
    (Holder.new factory idleTimeout now).Coherent where
  calls _ hs := nomatch hs
  jobs _ hjob := nomatch hjob

section

variable {h h' : Holder} {now c : Nat} {a : Action} {s : Stage}

theorem forall_jobs_abort {P : Job → Prop} (hjobs : ∀ job ∈ h.jobs, P job) (haborted : P .aborted)
    (j : Nat) : ∀ job ∈ (h.abort j).jobs, P job := by
  unfold abort
  split
  · exact hjobs
  · exact forall_mem_set hjobs haborted

theorem forall_jobs_abort? {P : Job → Prop} (hjobs : ∀ job ∈ h.jobs, P job)
    (haborted : P .aborted) (j? : Option Nat) : ∀ job ∈ (h.abort? j?).jobs, P job := by
  cases j? with
  | none => exact hjobs
  | some j => exact forall_jobs_abort hjobs haborted j

theorem JobStep.coherent {j : Nat} {job : Job} (hcoherent : h.Coherent)
    (hstep : h.JobStep j job h') : h'.Coherent := by
  obtain ⟨hcalls, hjobs⟩ := hcoherent
  cases hstep <;> exact ⟨hcalls, forall_mem_set hjobs rfl⟩

theorem Step.coherent (hcoherent : h.Coherent) (hstep : h.Step now a h') : h'.Coherent := by
  obtain ⟨hcalls, hjobs⟩ := hcoherent
  cases hstep with
  | begin operation =>
    refine ⟨forall_mem_append_singleton hcalls ?_, hjobs⟩
    cases operation <;> rfl
  -- a job is started, or gives what it has
  | create hc => exact ⟨forall_mem_set hcalls rfl, forall_mem_append_singleton hjobs rfl⟩
  | @start c timeout e source hc =>
    refine ⟨forall_mem_set hcalls rfl, forall_mem_append_singleton hjobs ?_⟩
    cases source <;> rfl
  | receive hc hjob =>
    have hexact := hjobs _ (List.mem_of_getElem? hjob)
    exact ⟨forall_mem_set hcalls hexact, hjobs⟩
  | job hj hjob => exact hjob.coherent ⟨hcalls, hjobs⟩
  -- a batch is accepted
  | acceptLast hc hfree hlife =>
    have hexact := hcalls _ (List.mem_of_getElem? hc)
    exact ⟨forall_mem_set hcalls (isFinal_of_isExact hexact), hjobs⟩
  -- a result is handed on
  | touch hc =>
    have hresult := hcalls _ (List.mem_of_getElem? hc)
    exact ⟨forall_mem_set hcalls hresult, hjobs⟩
  | closeClosed hc =>
    have hafter := Stage.isCoherent_close (hcalls _ (List.mem_of_getElem? hc))
    exact ⟨forall_mem_set hcalls (AfterClose.isCoherent_stage hafter), hjobs⟩
  | closePrepared hc =>
    have hafter := Stage.isCoherent_close (hcalls _ (List.mem_of_getElem? hc))
    exact ⟨forall_mem_set hcalls (AfterClose.isCoherent_stage hafter), hjobs⟩
  | closeExecuted hc =>
    have hafter := Stage.isCoherent_close (hcalls _ (List.mem_of_getElem? hc))
    exact ⟨forall_mem_set hcalls hafter, hjobs⟩
  | abortJobs hc =>
    have hafter := hcalls _ (List.mem_of_getElem? hc)
    refine ⟨forall_mem_set hcalls ?_, forall_jobs_abort? (forall_jobs_abort? hjobs rfl _) rfl _⟩
    split <;> exact hafter
  | cancelTask hc =>
    have hafter := hcalls _ (List.mem_of_getElem? hc)
    exact ⟨forall_mem_set hcalls hafter, hjobs⟩
  | closeTask hc =>
    have hafter := hcalls _ (List.mem_of_getElem? hc)
    exact ⟨forall_mem_set hcalls (AfterClose.isCoherent_stage hafter), hjobs⟩
  -- a job is aborted
  | expire hc => exact ⟨forall_mem_set hcalls rfl, forall_jobs_abort hjobs rfl _⟩
  | parkClosed hc => exact ⟨forall_mem_set hcalls rfl, forall_jobs_abort hjobs rfl _⟩
  | worker hw hworker => cases hworker <;> exact ⟨hcalls, hjobs⟩
  | _ =>
    -- every other call goes on without a result, or with one of its own
    exact ⟨forall_mem_set hcalls rfl, hjobs⟩

/-! ## Calls of a prepared holder -/

/-- As long as no task is made, no call has a batch. -/
theorem Step.fresh (hfresh : h.lifecycle = .prepared → ∀ s ∈ h.calls, s.holdsBatch = false)
    (hstep : h.Step now a h') :
    h'.lifecycle = .prepared → ∀ s ∈ h'.calls, s.holdsBatch = false := by
  intro hlife'
  have hnone {c : Nat} {s : Stage} (hlife : h.lifecycle = .prepared)
      (hc : h.calls[c]? = some s) : s.holdsBatch = false :=
    hfresh hlife s (List.mem_of_getElem? hc)
  cases hstep with
  | begin operation =>
    refine forall_mem_append_singleton (hfresh hlife') ?_
    cases operation <;> rfl
  -- the task is made, or was before, or the holder is closed
  | createFails hc hfree hlife hcreate => cases hlife'
  | create hc hfree hlife hcreate => cases hlife'
  | resume hc hfree hlife hpending => cases hlife'
  | start hc hfree hlife hpending hsource => cases hlife'
  | accept hc hfree hlife => cases hlife'
  | acceptLast hc hfree hlife => cases hlife'
  | park hc hfree hlife => cases hlife'
  | closePrepared hc hfree hlife => cases hlife'
  | closeExecuted hc hfree hlife => cases hlife'
  | reclaimPrepared hc hidle hlife => cases hlife'
  | reclaimExecuted hc hidle hlife => cases hlife'
  -- nobody waits for a batch
  | receive hc hjob => cases hnone hlife' hc
  | receiveFailed hc hjob => cases hnone hlife' hc
  | receiveCrashed hc hjob => cases hnone hlife' hc
  | expire hc hnow => cases hnone hlife' hc
  | abandonWait hc => cases hnone hlife' hc
  | closeClosed hc hfree hlife =>
    exact forall_mem_set (hfresh hlife') (AfterClose.holdsBatch_stage _)
  | abortJobs hc =>
    refine forall_mem_set (hfresh hlife') ?_
    split <;> rfl
  | closeTask hc => exact forall_mem_set (hfresh hlife') (AfterClose.holdsBatch_stage _)
  | job hj hjob => cases hjob <;> exact hfresh hlife'
  | worker hw hworker => cases hworker <;> exact hfresh hlife'
  | _ => exact forall_mem_set (hfresh hlife') rfl

/-! ## Replies of a closed holder -/

/-- Stages and results are in order. -/
structure Honest (h : Holder) : Prop where
  sound : h.Sound
  claimed : h.JobsClaimed
  coherent : h.Coherent
  fresh : h.lifecycle = .prepared → ∀ s ∈ h.calls, s.holdsBatch = false
  closed : ∀ s ∈ h.calls, s.followsClose = true → h.lifecycle.state = .closed

theorem honest_new (factory : Factory) (idleTimeout now : Nat) :
    (Holder.new factory idleTimeout now).Honest where
  sound := sound_new factory idleTimeout now
  claimed _ _ hj := nomatch hj
  coherent := coherent_new factory idleTimeout now
  fresh _ _ hs := nomatch hs
  closed _ hs := nomatch hs

/-- A call can hold a batch without an open task only once the holder is closed. -/
theorem Honest.closed_of_holdsBatch (hhonest : h.Honest) (hc : h.calls[c]? = some s)
    (hs : s.holdsBatch = true) (hlife : h.lifecycle.state ≠ .executed) :
    h.lifecycle.state = .closed := by
  cases heq : h.lifecycle with
  | prepared =>
    have hnone := hhonest.fresh heq s (List.mem_of_getElem? hc)
    rw [hs] at hnone
    cases hnone
  | executed e =>
    rw [heq] at hlife
    exact absurd rfl hlife
  | closed => rfl

/-- Nobody finds an aborted batch job before the holder is closed. -/
theorem Honest.closed_of_aborted (hhonest : h.Honest) {j deadline : Nat}
    (hc : h.calls[c]? = some (.fetchWait j deadline)) (hjob : h.jobs[j]? = some .aborted) :
    h.lifecycle.state = .closed := by
  refine hhonest.closed_of_holdsBatch hc rfl ?_
  intro hstate
  cases hlife : h.lifecycle with
  | prepared => rw [hlife] at hstate; cases hstate
  | executed e =>
    obtain ⟨-, -, hwaits⟩ := hhonest.sound.custody_held hlife hc rfl
    obtain ⟨-, job, hjob', hlive⟩ := hwaits j rfl
    cases Option.some.inj (hjob.symm.trans hjob')
    cases hlive
  | closed => rw [hlife] at hstate; cases hstate

/-- A fetch that begins a batch of an open task finds the parked job, or else the source. -/
theorem Sound.source_of_start (hsound : h.Sound) {timeout : Nat} {e : Execution}
    (hc : h.calls[c]? = some (.fetchStart timeout)) (hlife : h.lifecycle = .executed e)
    (hpending : e.pending = none) : e.source ≠ none := by
  intro hnone
  cases hsound.custody e hlife with
  | stored hsource => cases hnone.symm.trans hsource
  | parked hsource hjob hparked => cases hpending.symm.trans hparked
  | held hsource hpending' hc' hs' =>
    have heq := hsound.locked.fetch.unique hc rfl hc' (Stage.holdsFetchLock_of_holdsBatch hs')
    subst heq
    cases Option.some.inj (hc.symm.trans hc')
    cases hs'

/-- No call of an open holder comes from its close. -/
theorem Honest.followsClose_eq_false (hhonest : h.Honest) (hopen : h.lifecycle.state ≠ .closed) :
    ∀ s ∈ h.calls, s.followsClose = false := by
  intro s hs
  cases hfollows : s.followsClose with
  | false => rfl
  | true => exact absurd (hhonest.closed s hs hfollows) hopen

/-- A step by which a call of an open task goes on, not as after a close. -/
theorem Honest.stays_open {s' : Stage} (hhonest : h.Honest)
    (hlife : h.lifecycle.state ≠ .closed) (hcalls : h'.calls = h.calls.set c s')
    (hs' : s'.followsClose = false) :
    ∀ s ∈ h'.calls, s.followsClose = true → h'.lifecycle.state = .closed := by
  intro s hs hfollows
  rw [hcalls] at hs
  have hnone := forall_mem_set (hhonest.followsClose_eq_false hlife) hs' s hs
  rw [hfollows] at hnone
  cases hnone

theorem Step.closed (hhonest : h.Honest) (hstep : h.Step now a h') :
    ∀ s ∈ h'.calls, s.followsClose = true → h'.lifecycle.state = .closed := by
  have hclosed := hhonest.closed
  have hreleasing {c : Nat} {s : Stage} (hc : h.calls[c]? = some s)
      (hs : s.isReleasing = true) : h.lifecycle.state = .closed :=
    hhonest.sound.state_eq_of_releasing hc hs
  have hsays {c : Nat} {s : Stage} (hc : h.calls[c]? = some s) :
      s.followsClose = true → h.lifecycle.state = .closed :=
    hclosed s (List.mem_of_getElem? hc)
  have hopen {e : Execution} (hlife : h.lifecycle = .executed e) : h.lifecycle.state ≠ .closed := by
    rw [hlife]
    exact TaskState.noConfusion
  cases hstep with
  | begin operation =>
    refine forall_mem_append_singleton hclosed ?_
    cases operation <;> exact nofun
  -- the step itself closes the holder
  | createFails hc => exact fun _ _ _ => rfl
  | closePrepared hc => exact fun _ _ _ => rfl
  | closeExecuted hc => exact fun _ _ _ => rfl
  | reclaimPrepared hc => exact fun _ _ _ => rfl
  | reclaimExecuted hc => exact fun _ _ _ => rfl
  -- an open task stays open
  | create hc hfree hlife =>
    refine hhonest.stays_open ?_ rfl rfl
    rw [hlife]
    exact TaskState.noConfusion
  | resume hc hfree hlife => exact hhonest.stays_open (hopen hlife) rfl rfl
  | start hc hfree hlife => exact hhonest.stays_open (hopen hlife) rfl rfl
  | park hc hfree hlife => exact hhonest.stays_open (hopen hlife) rfl rfl
  | acceptLast hc hfree hlife => exact hhonest.stays_open (hopen hlife) rfl rfl
  | accept hc hfree hlife =>
    have hexact := hhonest.coherent.calls _ (List.mem_of_getElem? hc)
    exact hhonest.stays_open (hopen hlife) rfl (isFinal_of_isExact hexact)
  -- the holder was closed before
  | startNothing hc hfree hlife hpending hsource =>
    exact absurd hsource (hhonest.sound.source_of_start hc hlife hpending)
  | startClosed hc hfree hlife =>
    exact forall_mem_set hclosed fun _ => congrArg Lifecycle.state hlife
  | receiveAborted hc hjob =>
    exact forall_mem_set hclosed fun _ => hhonest.closed_of_aborted hc hjob
  | lose hc hfree hlife =>
    exact forall_mem_set hclosed fun _ => hhonest.closed_of_holdsBatch hc rfl hlife
  | closeClosed hc hfree hlife =>
    exact forall_mem_set hclosed fun _ => congrArg Lifecycle.state hlife
  | abortJobs hc => exact forall_mem_set hclosed fun _ => hreleasing hc rfl
  | cancelTask hc => exact forall_mem_set hclosed fun _ => hreleasing hc rfl
  | closeTask hc => exact forall_mem_set hclosed fun _ => hreleasing hc rfl
  | checkClosed hc hlife => exact forall_mem_set hclosed fun _ => congrArg Lifecycle.state hlife
  | reclaimClosed hc hidle hlife =>
    exact forall_mem_set hclosed fun _ => congrArg Lifecycle.state hlife
  -- the call says what it said before
  | touch hc =>
    have hsame := hsays hc
    exact forall_mem_set hclosed hsame
  | unlock hc =>
    have hsame := hsays hc
    exact forall_mem_set hclosed hsame
  | checkUnlock hc =>
    have hsame := hsays hc
    exact forall_mem_set hclosed hsame
  | job hj hjob => cases hjob <;> exact hclosed
  | worker hw hworker => cases hworker <;> exact hclosed
  | _ => exact forall_mem_set hclosed nofun

theorem Honest.step (hhonest : h.Honest) (hstep : h.Step now a h') : h'.Honest where
  sound := hhonest.sound.step hstep
  claimed := hstep.jobsClaimed hhonest.sound hhonest.claimed
  coherent := hstep.coherent hhonest.coherent
  fresh := hstep.fresh hhonest.fresh
  closed := hstep.closed hhonest

/-- Stages and results are in order in every run. -/
theorem run_honest {factory : Factory} {idleTimeout start : Nat} {as : List (Nat × Action)}
    (hrun : (Holder.new factory idleTimeout start).run as = some h) : h.Honest :=
  run_invariant Honest.step (honest_new factory idleTimeout start) hrun

/-- A reply that is given only after a close. -/
theorem Honest.closed_of_reply (hhonest : h.Honest) {reply : Reply}
    (hreply : h.reply? c = some reply) (hs : (Stage.returned reply).followsClose = true) :
    h.lifecycle.state = .closed :=
  hhonest.closed _ (List.mem_of_getElem? (reply?_eq_some_iff.mp hreply)) hs

/-- A closed holder stays closed. -/
theorem Step.stays_closed (hstep : h.Step now a h') (hclosed : h.lifecycle.state = .closed) :
    h'.lifecycle.state = .closed := by
  cases hstep.passage with
  | keep hstate => exact hstate.trans hclosed
  | create hstate => cases hstate.symm.trans hclosed
  | vacate ha hstate => cases hstate.symm.trans hclosed
  | close ha hc hs hstate => cases hstate.symm.trans hclosed
  | abort hc hstate => exact hstate.trans hclosed
  | cancel hc hstate => exact hstate.trans hclosed
  | release hc hstate => exact hstate.trans hclosed

end

end Holder

end PagedQuery.Task
