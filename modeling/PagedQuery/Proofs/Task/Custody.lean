import PagedQuery.Proofs.Task.Lifecycle
import PagedQuery.Proofs.Task.Locks

/-!
# Custody of the next batch

The next batch of an open task is in one place: it is yet to be read from the
stored source, a parked job reads it, or the one call that holds the fetch lock
waits for it or has it. Whatever the calls do, it is neither lost nor copied.

* `Holder.Custody`: where the next batch of an executed holder is;
* `Holder.Sound`: locks, phase and custody of a holder;
* `Holder.run_sound`: they hold in every run.
-/

namespace PagedQuery.Task

/-- The stages of the call that has the next batch in its hands. -/
def Stage.holdsBatch : Stage → Bool
  | .fetchWait .. => true
  | .fetchFinish .. => true
  | .fetchPark _ => true
  | .close _ (.fetch _) => true
  | _ => false

/-- The batch job that a call waits for or is about to park. -/
def Stage.job? : Stage → Option Nat
  | .fetchWait j _ => some j
  | .fetchPark j => some j
  | _ => none

def Job.isAborted : Job → Bool
  | .aborted => true
  | _ => false

theorem Stage.holdsFetchLock_of_holdsBatch {s : Stage} (hs : s.holdsBatch = true) :
    s.holdsFetchLock = true := by
  cases s with
  | close cancel after =>
    cases after with
    | fetch result => rfl
    | check => cases hs
    | cancel => cases hs
  | fetchWait j deadline => rfl
  | fetchFinish batch next => rfl
  | fetchPark j => rfl
  | _ => cases hs

theorem AfterClose.holdsBatch_stage (after : AfterClose) : after.stage.holdsBatch = false := by
  cases after <;> rfl

namespace Holder

/-- The job is there and will give something. -/
def HasJob (h : Holder) (j : Nat) : Prop :=
  ∃ job, h.jobs[j]? = some job ∧ job.isAborted = false

/-- Where the next batch of an executed holder is. -/
inductive Custody (h : Holder) (e : Execution) : Prop where
  /-- It is yet to be read. -/
  | stored {source : RowSource} (hsource : e.source = some source) (hjob : e.batchJob = none)
      (hpending : e.pending = none) (hnone : ∀ s ∈ h.calls, s.holdsBatch = false)
  /-- A parked job reads it. -/
  | parked {j : Nat} (hsource : e.source = none) (hjob : e.batchJob = some j)
      (hpending : e.pending = some j) (hlive : h.HasJob j)
      (hnone : ∀ s ∈ h.calls, s.holdsBatch = false)
  /-- A call waits for it or has it. -/
  | held {c : Nat} {s : Stage} (hsource : e.source = none) (hpending : e.pending = none)
      (hc : h.calls[c]? = some s) (hs : s.holdsBatch = true)
      (hjob : ∀ j, s.job? = some j → e.batchJob = some j ∧ h.HasJob j)

/-- Locks, phase and custody. -/
structure Sound (h : Holder) : Prop where
  locked : h.Locked
  phase : ∃ p, h.InPhase p
  custody : ∀ e, h.lifecycle = .executed e → h.Custody e

theorem sound_new (factory : Factory) (idleTimeout now : Nat) :
    (Holder.new factory idleTimeout now).Sound where
  locked := locked_new factory idleTimeout now
  phase := ⟨.prepared, inPhase_new factory idleTimeout now⟩
  custody e he := by cases he

section

variable {h h' : Holder} {e : Execution}

theorem Sound.state_eq_of_releasing (hsound : h.Sound) {c : Nat} {s : Stage}
    (hc : h.calls[c]? = some s) (hs : s.isReleasing = true) : h.lifecycle.state = .closed := by
  obtain ⟨p, hphase⟩ := hsound.phase
  obtain ⟨cancel, rfl, -⟩ := hphase.exists_releasing hc hs
  exact hphase.state_eq

/-- The call that has the batch is the only one. -/
theorem Sound.eq_of_holdsBatch (hsound : h.Sound) {c c' : Nat} {s s' : Stage}
    (hc : h.calls[c]? = some s) (hs : s.holdsBatch = true) (hc' : h.calls[c']? = some s')
    (hs' : s'.holdsBatch = true) : c = c' :=
  hsound.locked.fetch.unique hc (Stage.holdsFetchLock_of_holdsBatch hs) hc'
    (Stage.holdsFetchLock_of_holdsBatch hs')

/-- Once the call that has the batch has given it away, nobody has it. -/
theorem Sound.none_holdsBatch_set (hsound : h.Sound) {c : Nat} {s s' : Stage}
    (hc : h.calls[c]? = some s) (hs : s.holdsBatch = true) (hs' : s'.holdsBatch = false) :
    ∀ t ∈ h.calls.set c s', t.holdsBatch = false := by
  intro t ht
  obtain ⟨c', hc'⟩ := List.getElem?_of_mem ht
  rw [getElem?_set_of_some hc] at hc'
  split at hc'
  · cases hc'
    exact hs'
  · rename_i hne
    cases htb : t.holdsBatch with
    | false => rfl
    | true => exact absurd (hsound.eq_of_holdsBatch hc hs hc' htb) hne

/-- Custody does not change as long as the calls that have a batch stay where they are. -/
theorem Custody.frame (hcustody : h.Custody e)
    (hsame : SameStages Stage.holdsBatch h.calls h'.calls)
    (hjobs : ∀ j, h.HasJob j → h'.HasJob j) : h'.Custody e := by
  cases hcustody with
  | stored hsource hjob hpending hnone =>
    exact .stored hsource hjob hpending (hsame.forall_mem_eq_false hnone)
  | parked hsource hjob hpending hlive hnone =>
    exact .parked hsource hjob hpending (hjobs _ hlive) (hsame.forall_mem_eq_false hnone)
  | held hsource hpending hc hs hjob =>
    refine .held hsource hpending ((hsame _ _ hs).mpr hc) hs ?_
    intro j hj
    obtain ⟨hbatch, hlive⟩ := hjob j hj
    exact ⟨hbatch, hjobs j hlive⟩

/-- Whoever has the batch, the holder has neither a source nor a parked job. -/
theorem Sound.custody_held (hsound : h.Sound) (he : h.lifecycle = .executed e) {c : Nat}
    {s : Stage} (hc : h.calls[c]? = some s) (hs : s.holdsBatch = true) :
    e.source = none ∧ e.pending = none ∧
      ∀ j, s.job? = some j → e.batchJob = some j ∧ h.HasJob j := by
  have hmem := List.mem_of_getElem? hc
  cases hsound.custody e he with
  | stored hsource hjob hpending hnone =>
    rw [hnone s hmem] at hs
    cases hs
  | parked hsource hjob hpending hlive hnone =>
    rw [hnone s hmem] at hs
    cases hs
  | held hsource hpending hc' hs' hjob =>
    cases hsound.eq_of_holdsBatch hc hs hc' hs'
    cases Option.some.inj (hc.symm.trans hc')
    exact ⟨hsource, hpending, hjob⟩

/-- If the holder has a parked job, it has no source, and nobody has the batch. -/
theorem Custody.of_pending (hcustody : h.Custody e) {j : Nat} (hpending : e.pending = some j) :
    e.source = none ∧ e.batchJob = some j ∧ h.HasJob j := by
  cases hcustody with
  | stored hsource hjob hpending' hnone =>
    rw [hpending] at hpending'
    cases hpending'
  | parked hsource hjob hpending' hlive hnone =>
    cases Option.some.inj (hpending.symm.trans hpending')
    exact ⟨hsource, hjob, hlive⟩
  | held hsource hpending' hc hs hjob =>
    rw [hpending] at hpending'
    cases hpending'

/-- The stored source is taken while a batch job is under way. -/
theorem Custody.source_eq_none (hcustody : h.Custody e) (hjob : e.batchJob ≠ none) :
    e.source = none := by
  cases hcustody with
  | stored hsource hnone => exact absurd hnone hjob
  | parked hsource => exact hsource
  | held hsource => exact hsource

theorem Custody.batchJob_eq_none (hcustody : h.Custody e) {source : RowSource}
    (hsource : e.source = some source) : e.batchJob = none := by
  cases hjob : e.batchJob with
  | none => rfl
  | some j =>
    have hnone := hcustody.source_eq_none (by rw [hjob]; exact Option.some_ne_none j)
    cases hsource.symm.trans hnone

/-- A call goes on with the batch in its hands. -/
theorem Custody.take {c : Nat} {s s' : Stage} (hc : h.calls[c]? = some s)
    (hcalls : h'.calls = h.calls.set c s') (hs' : s'.holdsBatch = true)
    (hsource : e.source = none) (hpending : e.pending = none)
    (hjob : ∀ j, s'.job? = some j → e.batchJob = some j ∧ h'.HasJob j) : h'.Custody e := by
  refine .held hsource hpending (c := c) ?_ hs' hjob
  rw [hcalls, getElem?_set_of_some hc, if_pos rfl]

theorem HasJob.set {i : Nat} {old job : Job} (hi : h.jobs[i]? = some old)
    (hlive : job.isAborted = false) (hjobs : h'.jobs = h.jobs.set i job) {j : Nat}
    (hj : h.HasJob j) : h'.HasJob j := by
  obtain ⟨job', hjob', hlive'⟩ := hj
  unfold HasJob
  rw [hjobs, getElem?_set_of_some hi]
  split
  · exact ⟨job, rfl, hlive⟩
  · exact ⟨job', hjob', hlive'⟩

theorem hasJob_new {job : Job} (hlive : job.isAborted = false)
    (hjobs : h'.jobs = h.jobs ++ [job]) : h'.HasJob h.jobs.length := by
  refine ⟨job, ?_, hlive⟩
  rw [hjobs, List.getElem?_append_right (Nat.le_refl _), Nat.sub_self]
  rfl

theorem JobStep.hasJob {i : Nat} {job : Job} (hi : h.jobs[i]? = some job)
    (hstep : h.JobStep i job h') (j : Nat) (hj : h.HasJob j) : h'.HasJob j := by
  cases hstep <;> exact hj.set hi rfl rfl

theorem Step.custody {now : Nat} {a : Action} (hsound : h.Sound) (hstep : h.Step now a h') :
    ∀ e, h'.lifecycle = .executed e → h'.Custody e := by
  have hsame (j : Nat) (hj : h.HasJob j) : h.HasJob j := hj
  intro e he
  cases hstep with
  | begin operation =>
    refine (hsound.custody e he).frame (.append ?_) hsame
    cases operation <;> rfl
  -- a task is made, and its first batch is waited for
  | create hc hfree hlife hcreate =>
    cases he
    refine Custody.take hc rfl rfl rfl rfl ?_
    rintro j ⟨⟩
    exact ⟨rfl, hasJob_new rfl rfl⟩
  -- the next batch is taken from where it is
  | resume hc hfree hlife hpending =>
    cases he
    obtain ⟨hsource, hjob, hlive⟩ := (hsound.custody _ hlife).of_pending hpending
    refine Custody.take hc rfl rfl hsource rfl ?_
    rintro j ⟨⟩
    exact ⟨hjob, hlive⟩
  | start hc hfree hlife hpending hsource =>
    cases he
    refine Custody.take hc rfl rfl rfl hpending ?_
    rintro j ⟨⟩
    exact ⟨rfl, hasJob_new (by cases ‹RowSource› <;> rfl) rfl⟩
  -- it stays in the hands of the call
  | receive hc hjob =>
    obtain ⟨hsource, hpending, -⟩ := hsound.custody_held he hc rfl
    exact .take hc rfl rfl hsource hpending (by rintro j ⟨⟩)
  | receiveFailed hc hjob =>
    obtain ⟨hsource, hpending, -⟩ := hsound.custody_held he hc rfl
    exact .take hc rfl rfl hsource hpending (by rintro j ⟨⟩)
  | receiveCrashed hc hjob =>
    obtain ⟨hsource, hpending, -⟩ := hsound.custody_held he hc rfl
    exact .take hc rfl rfl hsource hpending (by rintro j ⟨⟩)
  | expire hc hnow =>
    obtain ⟨hsource, hpending, -⟩ := hsound.custody_held he hc rfl
    exact .take hc rfl rfl hsource hpending (by rintro j ⟨⟩)
  | abandonWait hc =>
    obtain ⟨hsource, hpending, hjob⟩ := hsound.custody_held he hc rfl
    exact .take hc rfl rfl hsource hpending hjob
  | acceptLast hc hfree hlife =>
    cases he
    obtain ⟨hsource, hpending, -⟩ := hsound.custody_held hlife hc rfl
    exact .take hc rfl rfl hsource hpending (by rintro j ⟨⟩)
  -- it goes back to the holder
  | accept hc hfree hlife =>
    cases he
    obtain ⟨-, hpending, -⟩ := hsound.custody_held hlife hc rfl
    exact .stored rfl rfl hpending (hsound.none_holdsBatch_set hc rfl rfl)
  | park hc hfree hlife =>
    cases he
    obtain ⟨hsource, -, hjob⟩ := hsound.custody_held hlife hc rfl
    obtain ⟨hbatch, hlive⟩ := hjob _ rfl
    exact .parked hsource hbatch rfl hlive (hsound.none_holdsBatch_set hc rfl rfl)
  -- nobody aborts the job of an open task but the call that waits for it
  | receiveAborted hc hjob =>
    obtain ⟨-, -, hlive⟩ := hsound.custody_held he hc rfl
    obtain ⟨-, job, hjob', hnot⟩ := hlive _ rfl
    cases Option.some.inj (hjob.symm.trans hjob')
    cases hnot
  -- the holder is closed, or has been
  | createFails hc hfree hlife hcreate => cases he
  | startClosed hc hfree hlife => cases hlife.symm.trans he
  | lose hc hfree hlife => exact absurd (congrArg Lifecycle.state he) hlife
  | parkClosed hc hfree hlife => exact absurd (congrArg Lifecycle.state he) hlife
  | closeClosed hc hfree hlife => cases hlife.symm.trans he
  | closePrepared hc hfree hlife => cases he
  | closeExecuted hc hfree hlife => cases he
  | abortJobs hc =>
    cases (congrArg Lifecycle.state he).symm.trans (hsound.state_eq_of_releasing hc rfl)
  | cancelTask hc =>
    cases (congrArg Lifecycle.state he).symm.trans (hsound.state_eq_of_releasing hc rfl)
  | closeTask hc =>
    cases (congrArg Lifecycle.state he).symm.trans (hsound.state_eq_of_releasing hc rfl)
  | reclaimPrepared hc hidle hlife => cases he
  | reclaimExecuted hc hidle hlife => cases he
  | job hj hjob =>
    refine Custody.frame (hsound.custody e ?_) ?_ (hjob.hasJob hj)
    · cases hjob <;> exact he
    · cases hjob <;> exact .refl _ _
  | worker hw hworker =>
    refine Custody.frame (hsound.custody e ?_) ?_ ?_
    · cases hworker <;> exact he
    · cases hworker <;> exact .refl _ _
    · cases hworker <;> exact hsame
  | _ =>
    -- no other call has to do with the batch
    have hc := ‹h.calls[_]? = some _›
    exact (hsound.custody e he).frame (.set hc rfl rfl) hsame

theorem Sound.step {now : Nat} {a : Action} (hsound : h.Sound) (hstep : h.Step now a h') :
    h'.Sound := by
  obtain ⟨p, hphase⟩ := hsound.phase
  obtain ⟨p', hphase', -⟩ := hphase.step hstep.passage
  exact ⟨hstep.locked hsound.locked, ⟨p', hphase'⟩, hstep.custody hsound⟩

/-- Locks, phase and custody are in order in every run. -/
theorem run_sound {factory : Factory} {idleTimeout start : Nat} {as : List (Nat × Action)}
    (hrun : (Holder.new factory idleTimeout start).run as = some h) : h.Sound :=
  run_invariant Sound.step (sound_new factory idleTimeout start) hrun

end

end Holder

end PagedQuery.Task
