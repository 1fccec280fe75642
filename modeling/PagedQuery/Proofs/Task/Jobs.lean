import PagedQuery.Proofs.Task.Custody

/-!
# Batch jobs in progress

A batch job that has something left to do is the one that the holder knows of,
and a call waits for it or it is parked; or the call that closed the holder is
about to abort it. So once a task is closed nothing works on its rows, and no
computation is started any more.

* `Job.isActive`, `Holder.Claimed`: jobs in progress, and who answers for them;
* `Holder.run_jobsClaimed`: somebody does, in every run;
* `Holder.Settled`: closed holders without a job in progress, which stay so.
-/

namespace PagedQuery.Task

/-- Whether a batch job has something left to do. -/
def Job.isActive : Job → Bool
  | .waiting _ => true
  | .reading _ => true
  | .gathered .. => true
  | .finished _ => false
  | .aborted => false

/-- Whether a call is about to abort the jobs of the holder that it closed. -/
def Stage.abortsJobs : Stage → Bool
  | .abortJobs .. => true
  | _ => false

namespace Holder

/-- A call is about to abort a job, or the holder is open and the job is parked or waited for. -/
inductive Claimed (h : Holder) (j : Nat) : Prop where
  | parked {e : Execution} (he : h.lifecycle = .executed e) (hjob : e.batchJob = some j)
      (hpending : e.pending = some j)
  | awaited {e : Execution} {c : Nat} {s : Stage} (he : h.lifecycle = .executed e)
      (hjob : e.batchJob = some j) (hc : h.calls[c]? = some s) (hs : s.job? = some j)
  | condemned {c : Nat} {e : Execution} {cancel : Bool} {after : AfterClose}
      (hc : h.calls[c]? = some (.abortJobs e cancel after)) (hjob : e.batchJob = some j)

/-- Somebody answers for every job in progress. -/
def JobsClaimed (h : Holder) : Prop :=
  ∀ (j : Nat) (job : Job), h.jobs[j]? = some job → job.isActive = true → h.Claimed j

/-- No job is in progress. -/
def Idle (h : Holder) : Prop :=
  ∀ (j : Nat) (job : Job), h.jobs[j]? = some job → job.isActive = false

section

variable {h h' : Holder} {j : Nat}

theorem idle_of_not_claimed (hclaimed : h.JobsClaimed) (hnone : ∀ j, ¬ h.Claimed j) : h.Idle := by
  intro j job hj
  cases hactive : job.isActive with
  | false => rfl
  | true => exact absurd (hclaimed j job hj hactive) (hnone j)

theorem Idle.jobsClaimed (hidle : h.Idle) : h.JobsClaimed := by
  intro j job hj hactive
  rw [hidle j job hj] at hactive
  cases hactive

/-! ## Jobs that are aborted -/

theorem jobs_abort (h : Holder) (i j : Nat) {job : Job} (hj : (h.abort i).jobs[j]? = some job)
    (hactive : job.isActive = true) : i ≠ j ∧ h.jobs[j]? = some job := by
  unfold abort at hj
  split at hj
  · rename_i result hi
    refine ⟨?_, hj⟩
    rintro rfl
    cases Option.some.inj (hi.symm.trans hj)
    cases hactive
  · change (h.jobs.set i .aborted)[j]? = some job at hj
    rw [List.getElem?_set] at hj
    split at hj
    · split at hj
      · cases hj
        cases hactive
      · cases hj
    · exact ⟨‹_›, hj⟩

theorem jobs_abort? (h : Holder) (i? : Option Nat) (j : Nat) {job : Job}
    (hj : (h.abort? i?).jobs[j]? = some job) (hactive : job.isActive = true) :
    i? ≠ some j ∧ h.jobs[j]? = some job := by
  cases i? with
  | none => exact ⟨Option.some_ne_none j ∘ Eq.symm, hj⟩
  | some i =>
    obtain ⟨hne, hjob⟩ := h.jobs_abort i j hj hactive
    exact ⟨fun heq => hne (Option.some.inj heq), hjob⟩

/-- Jobs are as they were, or have been aborted before they were finished. -/
def KeepsJobs (jobs jobs' : List Job) : Prop :=
  jobs'.length = jobs.length ∧ ∀ (j : Nat) (job : Job), jobs[j]? = some job →
    jobs'[j]? = some job ∨ (∀ result, job ≠ .finished result) ∧ jobs'[j]? = some .aborted

theorem keepsJobs_refl (jobs : List Job) : KeepsJobs jobs jobs :=
  ⟨rfl, fun _ _ => .inl⟩

theorem KeepsJobs.trans {jobs jobs' jobs'' : List Job} (hfirst : KeepsJobs jobs jobs')
    (hsecond : KeepsJobs jobs' jobs'') : KeepsJobs jobs jobs'' := by
  refine ⟨hsecond.1.trans hfirst.1, ?_⟩
  intro j job hj
  rcases hfirst.2 j job hj with hj' | ⟨hunfinished, hj'⟩
  · exact hsecond.2 j job hj'
  · rcases hsecond.2 j .aborted hj' with hj'' | ⟨-, hj''⟩
    · exact .inr ⟨hunfinished, hj''⟩
    · exact .inr ⟨hunfinished, hj''⟩

/-- A job that is finished keeps its result, and no other one is finished by it. -/
theorem KeepsJobs.finished_iff {jobs jobs' : List Job} (hkeeps : KeepsJobs jobs jobs')
    {result : JobResult} :
    jobs'[j]? = some (.finished result) ↔ jobs[j]? = some (.finished result) := by
  constructor
  · intro hj'
    have hlt : j < jobs.length := hkeeps.1 ▸ (List.getElem?_eq_some_iff.mp hj').1
    have hj := List.getElem?_eq_getElem hlt
    rcases hkeeps.2 j _ hj with hsame | ⟨-, haborted⟩
    · rw [hj, ← hsame, hj']
    · cases hj'.symm.trans haborted
  · intro hj
    rcases hkeeps.2 j _ hj with hj' | ⟨hunfinished, -⟩
    · exact hj'
    · exact absurd rfl (hunfinished result)

theorem keepsJobs_abort (h : Holder) (i : Nat) : KeepsJobs h.jobs (h.abort i).jobs := by
  unfold abort
  split
  · exact keepsJobs_refl h.jobs
  · rename_i hunfinished
    refine ⟨List.length_set, ?_⟩
    intro j job hj
    by_cases heq : i = j
    · subst heq
      refine .inr ⟨?_, getElem?_set_self_of_some hj⟩
      rintro result rfl
      exact hunfinished result hj
    · left
      rw [setJob, List.getElem?_set_ne heq, hj]

theorem keepsJobs_abort? (h : Holder) (i? : Option Nat) :
    KeepsJobs h.jobs (h.abort? i?).jobs := by
  cases i? with
  | none => exact keepsJobs_refl h.jobs
  | some i => exact h.keepsJobs_abort i

/-- The call that closed a holder aborts both its jobs. -/
theorem keepsJobs_abort?_abort? (h : Holder) (i? j? : Option Nat) :
    KeepsJobs h.jobs ((h.abort? i?).abort? j?).jobs :=
  (h.keepsJobs_abort? i?).trans (keepsJobs_abort? _ j?)

/-! ## Claims along a step -/

/-- A call that had no claim makes no difference when it goes on. -/
theorem Claimed.goTo {c : Nat} {s s' : Stage} (hclaim : h.Claimed j) (hc : h.calls[c]? = some s)
    (hs : s.job? = none) (habort : s.abortsJobs = false) (hlife : h'.lifecycle = h.lifecycle)
    (hcalls : h'.calls = h.calls.set c s') : h'.Claimed j := by
  have hkept {c' : Nat} {t : Stage} (hne : c ≠ c') (hc' : h.calls[c']? = some t) :
      h'.calls[c']? = some t := by
    rw [hcalls, List.getElem?_set_ne hne, hc']
  cases hclaim with
  | parked he hjob hpending => exact .parked (hlife.trans he) hjob hpending
  | @awaited e c' t he hjob hc' ht =>
    refine .awaited (hlife.trans he) hjob (hkept ?_ hc') ht
    rintro rfl
    cases Option.some.inj (hc.symm.trans hc')
    rw [hs] at ht
    cases ht
  | @condemned c' e cancel after hc' hjob =>
    refine .condemned (hkept ?_ hc') hjob
    rintro rfl
    cases Option.some.inj (hc.symm.trans hc')
    cases habort

/-- New calls make no difference either. -/
theorem Claimed.mono (hclaim : h.Claimed j) (hlife : h'.lifecycle = h.lifecycle)
    (hcalls : h.calls <+: h'.calls) : h'.Claimed j := by
  have hkept {c : Nat} {t : Stage} (hc : h.calls[c]? = some t) : h'.calls[c]? = some t := by
    obtain ⟨calls, hcalls⟩ := hcalls
    rw [← hcalls, List.getElem?_append_left (List.getElem?_eq_some_iff.mp hc).1, hc]
  cases hclaim with
  | parked he hjob hpending => exact .parked (hlife.trans he) hjob hpending
  | awaited he hjob hc hs => exact .awaited (hlife.trans he) hjob (hkept hc) hs
  | condemned hc hjob => exact .condemned (hkept hc) hjob

/-- A call that waited for another job, or for none, gives up its wait. -/
theorem Claimed.leave {c i : Nat} {s s' : Stage} (hclaim : h.Claimed j)
    (hc : h.calls[c]? = some s) (hs : s.job? = some i) (hne : i ≠ j)
    (hlife : h'.lifecycle = h.lifecycle) (hcalls : h'.calls = h.calls.set c s') :
    h'.Claimed j := by
  have hkept {c' : Nat} {t : Stage} (hother : c ≠ c') (hc' : h.calls[c']? = some t) :
      h'.calls[c']? = some t := by
    rw [hcalls, List.getElem?_set_ne hother, hc']
  cases hclaim with
  | parked he hjob hpending => exact .parked (hlife.trans he) hjob hpending
  | @awaited e c' t he hjob hc' ht =>
    refine .awaited (hlife.trans he) hjob (hkept ?_ hc') ht
    rintro rfl
    cases Option.some.inj (hc.symm.trans hc')
    exact hne (Option.some.inj (hs.symm.trans ht))
  | @condemned c' e cancel after hc' hjob =>
    refine .condemned (hkept ?_ hc') hjob
    rintro rfl
    cases Option.some.inj (hc.symm.trans hc')
    cases hs

/-- A prepared holder has no job in progress. -/
theorem Sound.idle_of_prepared (hsound : h.Sound) (hclaimed : h.JobsClaimed)
    (hlife : h.lifecycle = .prepared) : h.Idle := by
  refine idle_of_not_claimed hclaimed ?_
  intro j hclaim
  cases hclaim with
  | parked he => cases hlife.symm.trans he
  | awaited he => cases hlife.symm.trans he
  | condemned hc =>
    have hclosed := hsound.state_eq_of_releasing hc rfl
    rw [hlife] at hclosed
    cases hclosed

/-- An open holder has no job in progress but one that is parked or waited for. -/
theorem Sound.idle_of_executed {e : Execution} (hsound : h.Sound) (hclaimed : h.JobsClaimed)
    (hlife : h.lifecycle = .executed e) (hpending : e.pending = none)
    (hnone : ∀ (c : Nat) (s : Stage) (j : Nat), h.calls[c]? = some s → s.job? ≠ some j) :
    h.Idle := by
  refine idle_of_not_claimed hclaimed ?_
  intro j hclaim
  cases hclaim with
  | parked he hjob hparked =>
    cases hlife.symm.trans he
    cases hpending.symm.trans hparked
  | awaited he hjob hc hs => exact hnone _ _ j hc hs
  | condemned hc =>
    have hclosed := hsound.state_eq_of_releasing hc rfl
    rw [hlife] at hclosed
    cases hclosed

theorem Stage.holdsBatch_of_job? {s : Stage} (hs : s.job? = some j) : s.holdsBatch = true := by
  cases s with
  | fetchWait i deadline => rfl
  | fetchPark i => rfl
  | _ => cases hs

/-- No other call waits for a job while one has the batch. -/
theorem Sound.idle_of_finish {e : Execution} {c : Nat} {s : Stage} (hsound : h.Sound)
    (hclaimed : h.JobsClaimed) (hlife : h.lifecycle = .executed e) (hc : h.calls[c]? = some s)
    (hs : s.holdsBatch = true) (hnone : s.job? = none) : h.Idle := by
  obtain ⟨-, hpending, -⟩ := hsound.custody_held hlife hc hs
  refine hsound.idle_of_executed hclaimed hlife hpending ?_
  intro c' t j hc' ht
  have hsame := hsound.eq_of_holdsBatch hc hs hc' (Stage.holdsBatch_of_job? ht)
  subst hsame
  cases Option.some.inj (hc.symm.trans hc')
  rw [hnone] at ht
  cases ht

/-- No call waits for a job as long as the source of the next batch is stored. -/
theorem Sound.idle_of_stored {e : Execution} {source : RowSource} (hsound : h.Sound)
    (hclaimed : h.JobsClaimed) (hlife : h.lifecycle = .executed e)
    (hsource : e.source = some source) : h.Idle := by
  have hjob := (hsound.custody e hlife).batchJob_eq_none hsource
  refine idle_of_not_claimed hclaimed ?_
  intro j hclaim
  cases hclaim with
  | parked he hbatch =>
    cases hlife.symm.trans he
    cases hjob.symm.trans hbatch
  | awaited he hbatch =>
    cases hlife.symm.trans he
    cases hjob.symm.trans hbatch
  | condemned hc =>
    have hclosed := hsound.state_eq_of_releasing hc rfl
    rw [hlife] at hclosed
    cases hclosed

/-- The one call that closed the holder aborts every job that is left. -/
theorem Sound.idle_of_abort {c : Nat} {e : Execution} {cancel : Bool} {after : AfterClose}
    (hsound : h.Sound) (hclaimed : h.JobsClaimed)
    (hc : h.calls[c]? = some (.abortJobs e cancel after)) {job : Job}
    (hjob : ((h.abort? e.batchJob).abort? e.pending).jobs[j]? = some job) :
    job.isActive = false := by
  cases hactive : job.isActive with
  | false => rfl
  | true =>
    obtain ⟨-, hfirst⟩ := jobs_abort? _ _ j hjob hactive
    obtain ⟨hne, hold⟩ := jobs_abort? _ _ j hfirst hactive
    have hclosed := hsound.state_eq_of_releasing hc rfl
    cases hclaimed j job hold hactive with
    | parked he => rw [he] at hclosed; cases hclosed
    | awaited he => rw [he] at hclosed; cases hclosed
    | condemned hc' hbatch =>
      obtain ⟨p, hphase⟩ := hsound.phase
      obtain ⟨k, rfl, -⟩ := hphase.exists_releasing hc rfl
      obtain ⟨k', heq, -⟩ := hphase.exists_releasing hc' rfl
      cases heq
      cases Option.some.inj (hc.symm.trans hc')
      exact absurd hbatch hne

/-! ## Claims along a run -/

/-- A call that waits for no job goes on, and the jobs stay as they are. -/
theorem JobsClaimed.goTo {c : Nat} {s s' : Stage} (hclaimed : h.JobsClaimed)
    (hc : h.calls[c]? = some s) (hs : s.job? = none) (habort : s.abortsJobs = false)
    (hlife : h'.lifecycle = h.lifecycle) (hcalls : h'.calls = h.calls.set c s')
    (hjobs : h'.jobs = h.jobs) : h'.JobsClaimed := by
  intro j job hj hactive
  rw [hjobs] at hj
  exact (hclaimed j job hj hactive).goTo hc hs habort hlife hcalls

/-- A call gives up waiting for a job that has nothing left to do. -/
theorem JobsClaimed.leave {c i : Nat} {s s' : Stage} {job : Job} (hclaimed : h.JobsClaimed)
    (hc : h.calls[c]? = some s) (hs : s.job? = some i) (hi : h.jobs[i]? = some job)
    (hdone : job.isActive = false) (hlife : h'.lifecycle = h.lifecycle)
    (hcalls : h'.calls = h.calls.set c s') (hjobs : h'.jobs = h.jobs) : h'.JobsClaimed := by
  intro j other hj hactive
  rw [hjobs] at hj
  refine (hclaimed j other hj hactive).leave hc hs ?_ hlife hcalls
  rintro rfl
  cases Option.some.inj (hi.symm.trans hj)
  rw [hdone] at hactive
  cases hactive

/-- A call aborts the job that it waited for. -/
theorem JobsClaimed.abort {c i : Nat} {s s' : Stage} (hclaimed : h.JobsClaimed)
    (hc : h.calls[c]? = some s) (hs : s.job? = some i) (hlife : h'.lifecycle = h.lifecycle)
    (hcalls : h'.calls = h.calls.set c s') (hjobs : h'.jobs = (h.abort i).jobs) :
    h'.JobsClaimed := by
  intro j job hj hactive
  rw [hjobs] at hj
  obtain ⟨hne, hold⟩ := h.jobs_abort i j hj hactive
  exact (hclaimed j job hold hactive).leave hc hs hne hlife hcalls

/-- A job is started where none was in progress, and the call that starts it waits for it. -/
theorem Idle.start {c deadline : Nat} {s : Stage} {e : Execution} {job : Job} (hidle : h.Idle)
    (hc : h.calls[c]? = some s) (hlife : h'.lifecycle = .executed e)
    (hbatch : e.batchJob = some h.jobs.length)
    (hcalls : h'.calls = h.calls.set c (.fetchWait h.jobs.length deadline))
    (hjobs : h'.jobs = h.jobs ++ [job]) : h'.JobsClaimed := by
  intro j other hj hactive
  rw [hjobs] at hj
  rcases getElem?_of_append_singleton hj with hj | ⟨rfl, -⟩
  · rw [hidle j other hj] at hactive
    cases hactive
  · have hwaits : h'.calls[c]? = some (.fetchWait h.jobs.length deadline) := by
      rw [hcalls, getElem?_set_of_some hc, if_pos rfl]
    exact .awaited hlife hbatch hwaits rfl

/-- The call that closes an open holder will abort its jobs. -/
theorem JobsClaimed.close {c : Nat} {s : Stage} {e : Execution} {cancel : Bool}
    {after : AfterClose} (hsound : h.Sound) (hclaimed : h.JobsClaimed)
    (hlife : h.lifecycle = .executed e) (hc : h.calls[c]? = some s)
    (hcalls : h'.calls = h.calls.set c (.abortJobs e cancel after)) (hjobs : h'.jobs = h.jobs) :
    h'.JobsClaimed := by
  have hnew : h'.calls[c]? = some (.abortJobs e cancel after) := by
    rw [hcalls, getElem?_set_of_some hc, if_pos rfl]
  intro j job hj hactive
  rw [hjobs] at hj
  cases hclaimed j job hj hactive with
  | parked he hbatch =>
    cases hlife.symm.trans he
    exact .condemned hnew hbatch
  | awaited he hbatch =>
    cases hlife.symm.trans he
    exact .condemned hnew hbatch
  | condemned hc' =>
    have hclosed := hsound.state_eq_of_releasing hc' rfl
    rw [hlife] at hclosed
    cases hclosed

/-- A job goes on, and is in progress only if it was before. -/
theorem JobStep.jobsClaimed {i : Nat} {job : Job} (hclaimed : h.JobsClaimed)
    (hi : h.jobs[i]? = some job) (hstep : h.JobStep i job h') : h'.JobsClaimed := by
  have hwas : job.isActive = true := by
    cases hstep <;> rfl
  have hclaim := hclaimed i job hi hwas
  have hset (next : Job) (hjobs : h'.jobs = h.jobs.set i next)
      (hlife : h'.lifecycle = h.lifecycle) (hcalls : h'.calls = h.calls) : h'.JobsClaimed := by
    have hkeep (j : Nat) (hj : h.Claimed j) : h'.Claimed j :=
      hj.mono hlife (hcalls ▸ List.prefix_refl _)
    intro j other hj hactive
    rw [hjobs, getElem?_set_of_some hi] at hj
    split at hj
    · rename_i heq
      exact heq ▸ hkeep i hclaim
    · exact hkeep j (hclaimed j other hj hactive)
  cases hstep <;> exact hset _ rfl rfl rfl

theorem Step.jobsClaimed {now : Nat} {a : Action} (hsound : h.Sound) (hclaimed : h.JobsClaimed)
    (hstep : h.Step now a h') : h'.JobsClaimed := by
  cases hstep with
  | begin operation =>
    intro j job hj hactive
    exact (hclaimed j job hj hactive).mono rfl (List.prefix_append _ _)
  -- a job is started
  | create hc hfree hlife hcreate =>
    exact (hsound.idle_of_prepared hclaimed hlife).start hc rfl rfl rfl rfl
  | start hc hfree hlife hpending hsource =>
    exact (hsound.idle_of_stored hclaimed hlife hsource).start hc rfl rfl rfl rfl
  -- a parked job is waited for
  | @resume c timeout i e hc hfree hlife hpending =>
    intro j job hj hactive
    cases hclaimed j job hj hactive with
    | parked he hjob hparked =>
      cases hlife.symm.trans he
      cases Option.some.inj (hpending.symm.trans hparked)
      have hwaits : (h.calls.set c (.fetchWait i (now + timeout)))[c]? =
          some (.fetchWait i (now + timeout)) := by
        rw [getElem?_set_of_some hc, if_pos rfl]
      exact .awaited rfl hjob hwaits rfl
    | @awaited e' c' t he hjob hc' ht =>
      cases hlife.symm.trans he
      refine .awaited (c := c') rfl hjob ?_ ht
      have hne : c ≠ c' := by
        rintro rfl
        cases Option.some.inj (hc.symm.trans hc')
        cases ht
      exact (List.getElem?_set_ne hne).trans hc'
    | condemned hc' =>
      have hclosed := hsound.state_eq_of_releasing hc' rfl
      rw [hlife] at hclosed
      cases hclosed
  -- a job is finished, or aborted
  | receive hc hjob => exact hclaimed.leave hc rfl hjob rfl rfl rfl rfl
  | receiveFailed hc hjob => exact hclaimed.leave hc rfl hjob rfl rfl rfl rfl
  | receiveCrashed hc hjob => exact hclaimed.leave hc rfl hjob rfl rfl rfl rfl
  | receiveAborted hc hjob => exact hclaimed.leave hc rfl hjob rfl rfl rfl rfl
  | expire hc hnow => exact hclaimed.abort hc rfl rfl rfl rfl
  | parkClosed hc hfree hlife => exact hclaimed.abort hc rfl rfl rfl rfl
  | accept hc hfree hlife =>
    have hidle := hsound.idle_of_finish hclaimed hlife hc rfl rfl
    exact Idle.jobsClaimed hidle
  | acceptLast hc hfree hlife =>
    have hidle := hsound.idle_of_finish hclaimed hlife hc rfl rfl
    exact Idle.jobsClaimed hidle
  -- a job is handed on
  | @abandonWait c i deadline hc =>
    intro j job hj hactive
    cases hclaimed j job hj hactive with
    | parked he hjob hpending => exact .parked he hjob hpending
    | @awaited e' c' t he hjob hc' ht =>
      by_cases heq : c = c'
      · subst heq
        cases Option.some.inj (hc.symm.trans hc')
        exact .awaited he hjob ((getElem?_set_of_some hc).trans (if_pos rfl)) ht
      · exact .awaited he hjob ((List.getElem?_set_ne heq).trans hc') ht
    | condemned hc' hjob =>
      refine .condemned ((List.getElem?_set_ne ?_).trans hc') hjob
      rintro rfl
      cases Option.some.inj (hc.symm.trans hc')
  | @park c i e hc hfree hlife =>
    obtain ⟨-, hpending, -⟩ := hsound.custody_held hlife hc rfl
    intro j job hj hactive
    cases hclaimed j job hj hactive with
    | parked he hjob hparked =>
      cases hlife.symm.trans he
      cases hpending.symm.trans hparked
    | awaited he hjob hc' ht =>
      cases hlife.symm.trans he
      have hsame := hsound.eq_of_holdsBatch hc rfl hc' (Stage.holdsBatch_of_job? ht)
      subst hsame
      cases Option.some.inj (hc.symm.trans hc')
      cases ht
      exact .parked rfl hjob rfl
    | condemned hc' =>
      have hclosed := hsound.state_eq_of_releasing hc' rfl
      rw [hlife] at hclosed
      cases hclosed
  -- the holder is closed
  | createFails hc hfree hlife hcreate =>
    have hidle := hsound.idle_of_prepared hclaimed hlife
    exact Idle.jobsClaimed hidle
  | closePrepared hc hfree hlife =>
    have hidle := hsound.idle_of_prepared hclaimed hlife
    exact Idle.jobsClaimed hidle
  | reclaimPrepared hc hidle hlife =>
    have hnone := hsound.idle_of_prepared hclaimed hlife
    exact Idle.jobsClaimed hnone
  | closeExecuted hc hfree hlife => exact JobsClaimed.close hsound hclaimed hlife hc rfl rfl
  | reclaimExecuted hc hidle hlife => exact JobsClaimed.close hsound hclaimed hlife hc rfl rfl
  | abortJobs hc =>
    refine Idle.jobsClaimed ?_
    intro j job hj
    exact hsound.idle_of_abort hclaimed hc hj
  -- work in progress
  | job hj hjob => exact hjob.jobsClaimed hclaimed hj
  | worker hw hworker =>
    intro j job hj hactive
    have hclaim := hclaimed j job (by cases hworker <;> exact hj) hactive
    refine hclaim.mono ?_ ?_
    · cases hworker <;> rfl
    · cases hworker <;> exact List.prefix_refl _
  | _ =>
    -- no other call has to do with a job
    have hc := ‹h.calls[_]? = some _›
    exact hclaimed.goTo hc rfl rfl rfl rfl rfl

/-- Somebody answers for every job in progress, in every run. -/
theorem run_jobsClaimed {factory : Factory} {idleTimeout start : Nat} {as : List (Nat × Action)}
    (hrun : (Holder.new factory idleTimeout start).run as = some h) :
    h.Sound ∧ h.JobsClaimed := by
  refine run_invariant (P := fun h => h.Sound ∧ h.JobsClaimed) ?_ ⟨sound_new _ _ _, ?_⟩ hrun
  · rintro h now a h' ⟨hsound, hclaimed⟩ hstep
    exact ⟨hsound.step hstep, hstep.jobsClaimed hsound hclaimed⟩
  · intro j job hj
    cases hj

/-! ## After the close -/

/-- The holder is closed and no job is in progress. -/
structure Settled (h : Holder) : Prop where
  closed : h.lifecycle.state = .closed
  idle : h.Idle
  noAbort : ∀ s ∈ h.calls, s.abortsJobs = false

/-- When a call closes the task, it has aborted all jobs. -/
theorem Sound.settled_of_closeTask {c : Nat} {after : AfterClose} (hsound : h.Sound)
    (hclaimed : h.JobsClaimed) (hc : h.calls[c]? = some (.closeTask after)) : h.Settled := by
  have hclosed := hsound.state_eq_of_releasing hc rfl
  have hnoAbort (c' : Nat) (s : Stage) (hc' : h.calls[c']? = some s) : s.abortsJobs = false := by
    cases hs : s.abortsJobs with
    | false => rfl
    | true =>
      cases s with
      | abortJobs e cancel next =>
        obtain ⟨p, hphase⟩ := hsound.phase
        obtain ⟨k, rfl, -⟩ := hphase.exists_releasing hc rfl
        obtain ⟨k', heq, -⟩ := hphase.exists_releasing hc' rfl
        cases heq
        cases Option.some.inj (hc.symm.trans hc')
      | _ => cases hs
  refine ⟨hclosed, idle_of_not_claimed hclaimed ?_, ?_⟩
  · intro j hclaim
    cases hclaim with
    | parked he => rw [he] at hclosed; cases hclosed
    | awaited he => rw [he] at hclosed; cases hclosed
    | condemned hc' => cases hnoAbort _ _ hc'
  · intro s hs
    obtain ⟨c', hc'⟩ := List.getElem?_of_mem hs
    exact hnoAbort c' s hc'

theorem Settled.not_executed {e : Execution} (hsettled : h.Settled) :
    h.lifecycle ≠ .executed e := by
  intro he
  have hclosed := hsettled.closed
  rw [he] at hclosed
  cases hclosed

theorem Settled.not_prepared (hsettled : h.Settled) : h.lifecycle ≠ .prepared := by
  intro he
  have hclosed := hsettled.closed
  rw [he] at hclosed
  cases hclosed

/-- Only calls move, and none of them goes on to abort jobs. -/
theorem Settled.goTo {c : Nat} {s : Stage} (hsettled : h.Settled) (hs : s.abortsJobs = false)
    (hlife : h'.lifecycle = h.lifecycle) (hjobs : h'.jobs = h.jobs)
    (hcalls : h'.calls = h.calls.set c s) : h'.Settled where
  closed := by rw [hlife, hsettled.closed]
  idle := by
    intro j job hj
    rw [hjobs] at hj
    exact hsettled.idle j job hj
  noAbort := by
    rw [hcalls]
    exact forall_mem_set hsettled.noAbort hs

theorem Settled.abort {c i : Nat} {s : Stage} (hsettled : h.Settled) (hs : s.abortsJobs = false)
    (hlife : h'.lifecycle = h.lifecycle) (hjobs : h'.jobs = (h.abort i).jobs)
    (hcalls : h'.calls = h.calls.set c s) : h'.Settled where
  closed := by rw [hlife, hsettled.closed]
  idle := by
    intro j job hj
    rw [hjobs] at hj
    cases hactive : job.isActive with
    | false => rfl
    | true =>
      obtain ⟨-, hold⟩ := h.jobs_abort i j hj hactive
      rw [hsettled.idle j job hold] at hactive
      cases hactive
  noAbort := by
    rw [hcalls]
    exact forall_mem_set hsettled.noAbort hs

theorem abortsJobs_stage (after : AfterClose) : after.stage.abortsJobs = false := by
  cases after <;> rfl

/-- A closed holder without a job in progress stays one, and starts no computation. -/
theorem Settled.step {now : Nat} {a : Action} (hsettled : h.Settled) (hstep : h.Step now a h') :
    h'.Settled ∧ h'.workers.length = h.workers.length := by
  cases hstep with
  | begin operation =>
    refine ⟨⟨hsettled.closed, hsettled.idle, ?_⟩, rfl⟩
    refine forall_mem_append_singleton hsettled.noAbort ?_
    cases operation <;> rfl
  -- the holder is not open any more
  | createFails hc hfree hlife hcreate => exact absurd hlife hsettled.not_prepared
  | create hc hfree hlife hcreate => exact absurd hlife hsettled.not_prepared
  | resume hc hfree hlife hpending => exact absurd hlife hsettled.not_executed
  | start hc hfree hlife hpending hsource => exact absurd hlife hsettled.not_executed
  | accept hc hfree hlife => exact absurd hlife hsettled.not_executed
  | acceptLast hc hfree hlife => exact absurd hlife hsettled.not_executed
  | park hc hfree hlife => exact absurd hlife hsettled.not_executed
  | closePrepared hc hfree hlife => exact absurd hlife hsettled.not_prepared
  | closeExecuted hc hfree hlife => exact absurd hlife hsettled.not_executed
  | reclaimPrepared hc hidle hlife => exact absurd hlife hsettled.not_prepared
  | reclaimExecuted hc hidle hlife => exact absurd hlife hsettled.not_executed
  -- its jobs are finished or aborted
  | abortJobs hc => cases hsettled.noAbort _ (List.mem_of_getElem? hc)
  | job hj hjob =>
    have hnone := hsettled.idle _ _ hj
    cases hjob <;> cases hnone
  | expire hc hnow => exact ⟨hsettled.abort rfl rfl rfl rfl, rfl⟩
  | parkClosed hc hfree hlife => exact ⟨hsettled.abort rfl rfl rfl rfl, rfl⟩
  | closeClosed hc hfree hlife =>
    exact ⟨hsettled.goTo (abortsJobs_stage _) rfl rfl rfl, rfl⟩
  | closeTask hc =>
    exact ⟨hsettled.goTo (abortsJobs_stage _) rfl rfl rfl, rfl⟩
  | worker hw hworker =>
    refine ⟨⟨?_, ?_, ?_⟩, ?_⟩
    · cases hworker <;> exact hsettled.closed
    · cases hworker <;> exact hsettled.idle
    · cases hworker <;> exact hsettled.noAbort
    · cases hworker <;> exact List.length_set
  | _ =>
    -- any other call moves on
    exact ⟨hsettled.goTo rfl rfl rfl rfl, rfl⟩

end

end Holder

end PagedQuery.Task
