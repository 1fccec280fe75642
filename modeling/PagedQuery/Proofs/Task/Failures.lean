import PagedQuery.Proofs.Task.Calls

/-!
# Failures

The work of a fetch is done elsewhere: a computation connects and executes, a
batch job asks for rows and columns, and the fetch that waits for the job may
not be the one that started it. Whatever fails there arrives at the fetch. A
call that fails while the task is made, computed or read is an execution error
with its cause, also if it broke off; the batch job itself breaks off if the
call for the columns does.

* `Lookahead.Asks`: the row requests of a batch, and the one that fails;
* `Failure`, `Failure.error`: calls that fail, and what a fetch makes of them;
* `Holder.WorkerFails`, `Holder.JobFails`: the steps that make such a call;
* `Holder.FetchFails`: the failed calls that are the concern of a fetch;
* `Holder.failure_of_run`: what a fetch returns if its work fails, in every run.
-/

namespace PagedQuery.Task

/-! ## Row requests -/

namespace Lookahead

/-- The fault that an outcome is, if it is one. -/
def fault? {α : Type} : Except Fault α → Option Fault
  | .ok _ => none
  | .error fault => some fault

/-- From `l` to `l'` rows are asked for, and an answer is a fault exactly if it is the outcome. -/
structure Asks (l l' : Lookahead) (outcome : Option Fault) : Prop where
  answer_eq : l'.cursor.answer = l.cursor.answer
  asked_le : l.cursor.asked ≤ l'.cursor.asked
  eq_some_iff : ∀ cause, outcome = some cause ↔
    ∃ k, l.cursor.asked ≤ k ∧ k < l'.cursor.asked ∧ l.cursor.answer k = .fault cause

variable {l l₁ l₂ : Lookahead}

/-- No row is asked for. -/
theorem asks_none (hcursor : l₁.cursor = l.cursor) : l.Asks l₁ none where
  answer_eq := by rw [hcursor]
  asked_le := Nat.le_of_eq (congrArg Cursor.asked hcursor.symm)
  eq_some_iff cause := by
    refine ⟨nofun, ?_⟩
    rintro ⟨k, hfrom, hto, -⟩
    rw [hcursor] at hto
    exact absurd hfrom (Nat.not_le_of_lt hto)

/-- One row is asked for. -/
theorem asks_cursor (hcursor : l₁.cursor = l.cursor.next.2) :
    l.Asks l₁ (fault? l.cursor.next.1) where
  answer_eq := by rw [hcursor]; rfl
  asked_le := by rw [hcursor]; exact Nat.le_succ _
  eq_some_iff cause := by
    have hrange (k : Nat) : l.cursor.asked ≤ k ∧ k < l.cursor.asked + 1 ↔ k = l.cursor.asked := by
      omega
    have hasked : l₁.cursor.asked = l.cursor.asked + 1 := by rw [hcursor]; rfl
    simp only [hasked, ← and_assoc, hrange, exists_eq_left]
    unfold Cursor.next
    cases l.cursor.answer l.cursor.asked with
    | row row | exhausted => exact ⟨nofun, nofun⟩
    | fault fault =>
      exact Option.some_inj.trans ⟨congrArg RowAnswer.fault, RowAnswer.fault.inj⟩

/-- More rows are asked for, none of which was a fault so far. -/
theorem Asks.trans {outcome : Option Fault} (hfirst : l.Asks l₁ none)
    (hsecond : l₁.Asks l₂ outcome) : l.Asks l₂ outcome where
  answer_eq := hsecond.answer_eq.trans hfirst.answer_eq
  asked_le := Nat.le_trans hfirst.asked_le hsecond.asked_le
  eq_some_iff cause := by
    rw [hsecond.eq_some_iff, hfirst.answer_eq]
    constructor
    · rintro ⟨k, hfrom, hto, hfault⟩
      exact ⟨k, Nat.le_trans hfirst.asked_le hfrom, hto, hfault⟩
    · rintro ⟨k, hfrom, hto, hfault⟩
      refine ⟨k, Nat.le_of_not_lt fun hlt => ?_, hto, hfault⟩
      cases (hfirst.eq_some_iff cause).mpr ⟨k, hfrom, hlt, hfault⟩

theorem asks_next (l : Lookahead) : l.Asks l.next.2 (fault? l.next.1) := by
  unfold next
  split
  · exact asks_none rfl
  · exact asks_cursor rfl

theorem asks_read (l : Lookahead) (limit : Nat) :
    l.Asks (l.read limit).2 (fault? (l.read limit).1) := by
  induction limit generalizing l with
  | zero => exact asks_none rfl
  | succ limit ih =>
    have hfirst := l.asks_next
    rw [read]
    split
    · rename_i heq
      rwa [heq] at hfirst
    · rename_i heq
      rwa [heq] at hfirst
    · rename_i row l₁ heq
      rw [heq] at hfirst
      have hrest := ih l₁
      split
      · rename_i heq₁
        rw [heq₁] at hrest
        exact hfirst.trans hrest
      · rename_i heq₁
        rw [heq₁] at hrest
        exact hfirst.trans hrest

theorem asks_hasMore (l : Lookahead) : l.Asks l.hasMore.2 (fault? l.hasMore.1) := by
  unfold hasMore
  split
  · exact asks_none rfl
  · split
    · rename_i fault cursor heq
      have hcursor : l.Asks { l with cursor } (fault? l.cursor.next.1) :=
        asks_cursor (congrArg Prod.snd heq).symm
      rwa [heq] at hcursor
    · rename_i row cursor heq
      have hcursor : l.Asks { cursor, peeked := row } (fault? l.cursor.next.1) :=
        asks_cursor (congrArg Prod.snd heq).symm
      rwa [heq] at hcursor

/-- Reading a batch fails exactly if one of its row requests does, that for the row after it
included. -/
theorem asks_readBatch (l : Lookahead) (limit : Nat) :
    l.Asks (l.readBatch limit).2 (fault? (l.readBatch limit).1) := by
  have hfirst := l.asks_read limit
  unfold readBatch
  split
  · rename_i heq
    rwa [heq] at hfirst
  · rename_i rows l₁ heq
    rw [heq] at hfirst
    have hmore := l₁.asks_hasMore
    split
    · rename_i heq₁
      rw [heq₁] at hmore
      exact hfirst.trans hmore
    · rename_i heq₁
      rw [heq₁] at hmore
      exact hfirst.trans hmore

end Lookahead

/-! ## Failures -/

/-- A call of a task that does not succeed, and why. -/
inductive Failure where
  /-- Making the task. -/
  | create (message : String)
  /-- Connecting, in a computation. -/
  | connect (cause : Fault)
  /-- Executing the statement, in a computation. -/
  | execute (cause : Fault)
  /-- Asking the cursor for a row. -/
  | nextRow (cause : Fault)
  /-- Asking the cursor for its columns: the batch job breaks off. -/
  | columns

namespace Failure

/-- What a fetch makes of the failure. -/
def error : Failure → TaskError
  | create message => .execution (.failed message)
  | connect cause => .execution cause
  | execute cause => .execution cause
  | nextRow cause => .execution cause
  | columns => .join

/-- Whether the call broke off without an error. -/
def isCrash : Failure → Bool
  | connect .crashed => true
  | execute .crashed => true
  | nextRow .crashed => true
  | columns => true
  | _ => false

end Failure

/-- The error that a fetch makes of the result of its job, if the job failed. -/
def JobResult.error? : JobResult → Option TaskError
  | .ready _ _ => none
  | .failed cause => some (.execution cause)
  | .crashed => some .join

/-- The errors of a fetch whose own work failed. -/
def TaskError.IsOfWork : TaskError → Prop
  | .execution _ => True
  | .join => True
  | _ => False

/-- Whether a fetch at the stage is about to return the result, or has returned it. -/
def Stage.Brings (result : FetchResult) : Stage → Prop
  | .fetchTouch found => result = found
  | .fetchUnlock found => result = found
  | .close _ after => after.Returns result
  | .abortJobs _ _ after => after.Returns result
  | .cancelTask after => after.Returns result
  | .closeTask after => after.Returns result
  | .returned (.fetched found) => result = found
  | _ => False

theorem AfterClose.brings_stage {result : FetchResult} {after : AfterClose} :
    after.stage.Brings result ↔ after.Returns result := by
  cases after <;> exact Iff.rfl

theorem Stage.eq_of_brings {result found : FetchResult} {s : Stage}
    (hs : s.Brings found) (hreturn : s.MayReturn result) : result = found := by
  have hafter {after : AfterClose} (hs : after.Returns found) (hreturn : after.Returns result) :
      result = found := by
    cases after with
    | fetch expected =>
      cases hs
      exact hreturn
    | check | cancel => cases hs
  cases s with
  | fetchTouch expected | fetchUnlock expected =>
    cases hs
    exact hreturn
  | close cancel after | abortJobs e cancel after | cancelTask after | closeTask after =>
    exact hafter hs hreturn
  | returned reply =>
    cases reply with
    | fetched expected =>
      cases hs
      exact hreturn
    | _ => cases hs
  | _ => cases hs

namespace Holder

section

variable {h h' g g' : Holder} {now c w j : Nat} {a : Action} {s s' : Stage}
  {as : List (Nat × Action)}

/-! ## Results that stay -/

theorem Step.getElem?_workers_finished (hstep : h.Step now a h') {result : Except Fault Cursor}
    (hw : h.workers[w]? = some (.finished result)) :
    h'.workers[w]? = some (.finished result) := by
  have hlt := (List.getElem?_eq_some_iff.mp hw).1
  cases hstep with
  | create hc => exact (List.getElem?_append_left hlt).trans hw
  | job hj hjob =>
    cases hjob with
    | chain hcrash hnext => exact (List.getElem?_append_left hlt).trans hw
    | _ => exact hw
  | @worker w' worker h' hw' hworker =>
    have hne : w' ≠ w := by
      rintro rfl
      cases Option.some.inj (hw.symm.trans hw')
      cases hworker
    cases hworker <;> exact (List.getElem?_set_ne hne).trans hw
  | _ => exact hw

theorem Step.getElem?_jobs_finished (hstep : h.Step now a h') {result : JobResult}
    (hj : h.jobs[j]? = some (.finished result)) : h'.jobs[j]? = some (.finished result) := by
  have hlt := (List.getElem?_eq_some_iff.mp hj).1
  cases hstep with
  | create hc | start hc => exact (List.getElem?_append_left hlt).trans hj
  | expire hc | parkClosed hc => exact (h.keepsJobs_abort _).finished_iff.mpr hj
  | abortJobs hc => exact (h.keepsJobs_abort?_abort? _ _).finished_iff.mpr hj
  | @job i job h' hi hjob =>
    have hne : i ≠ j := by
      rintro rfl
      cases Option.some.inj (hi.symm.trans hj)
      cases hjob
    cases hjob <;> exact (List.getElem?_set_ne hne).trans hj
  | worker hw hworker => cases hworker <;> exact hj
  | _ => exact hj

theorem run_worker_finished (hrun : h.run as = some h') {result : Except Fault Cursor}
    (hw : h.workers[w]? = some (.finished result)) : h'.workers[w]? = some (.finished result) :=
  run_invariant (fun hw hstep => hstep.getElem?_workers_finished hw) hw hrun

theorem run_job_finished (hrun : h.run as = some h') {result : JobResult}
    (hj : h.jobs[j]? = some (.finished result)) : h'.jobs[j]? = some (.finished result) :=
  run_invariant (fun hj hstep => hstep.getElem?_jobs_finished hj) hj hrun

theorem run_mayReturn {result : FetchResult} (hrun : h.run as = some h')
    (hc : h.calls[c]? = some s) (hc' : h'.calls[c]? = some s') (hreturn : s'.MayReturn result) :
    s.MayReturn result := by
  induction as generalizing h s with
  | nil =>
    cases hrun
    cases Option.some.inj (hc.symm.trans hc')
    exact hreturn
  | cons step rest ih =>
    obtain ⟨h₁, hfirst, hrest⟩ := run_cons_eq_some_iff.mp hrun
    have hstep := step_of_eq_some hfirst
    obtain ⟨s₁, hc₁⟩ := hstep.exists_call hc
    exact hstep.mayReturn hc hc₁ (ih hrest hc₁)

/-- A fetch returns the result that it brings. -/
theorem run_brings {result found : FetchResult} (hrun : h.run as = some h')
    (hc : h.calls[c]? = some s) (hs : s.Brings found)
    (hc' : h'.calls[c]? = some (.returned (.fetched result))) : result = found :=
  Stage.eq_of_brings hs (run_mayReturn hrun hc hc' rfl)

end

/-! ## Computations that fail -/

/-- The next step of computation `w` makes a call that fails. -/
inductive WorkerFails (h : Holder) (w : Nat) : Failure → Prop where
  | connect {cause : Fault} (hw : h.workers[w]? = some .started)
      (hopen : h.session.connection = none)
      (hconnect : h.factory.backend.connect h.session.attempts = .error cause) :
      WorkerFails h w (.connect cause)
  | execute {connection execution : Nat} {cause : Fault}
      (hw : h.workers[w]? = some (.executing connection execution))
      (hexecute : h.factory.backend.execute connection execution = .error cause) :
      WorkerFails h w (.execute cause)

section

variable {h h' : Holder} {now w : Nat} {a : Action} {as : List (Nat × Action)} {failure : Failure}

/-- The computation ends with the cause of the failure. -/
theorem WorkerFails.step (hfails : h.WorkerFails w failure) (hstep : h.Step now (.worker w) h') :
    ∃ cause, h'.workers[w]? = some (.finished (.error cause)) ∧
      failure.error = .execution cause := by
  cases hstep with
  | worker hw' hworker =>
    have hset {next : Worker} : (h.workers.set w next)[w]? = some next :=
      getElem?_set_self_of_some hw'
    cases hfails with
    | connect hw hopen hconnect =>
      cases Option.some.inj (hw.symm.trans hw')
      cases hworker with
      | reuse hopen' => cases hopen.symm.trans hopen'
      | connect _ hconnect' => cases hconnect.symm.trans hconnect'
      | connectFails _ hconnect' =>
        cases hconnect.symm.trans hconnect'
        exact ⟨_, hset, rfl⟩
    | execute hw hexecute =>
      cases Option.some.inj (hw.symm.trans hw')
      cases hworker with
      | executed hexecute' => cases hexecute.symm.trans hexecute'
      | executeFails hexecute' =>
        cases hexecute.symm.trans hexecute'
        exact ⟨_, hset, rfl⟩

/-- A computation ends with an error only by a call that fails. -/
theorem Step.workerFails (hstep : h.Step now a h') {cause : Fault}
    (hw' : h'.workers[w]? = some (.finished (.error cause))) :
    h.workers[w]? = some (.finished (.error cause)) ∨
      a = .worker w ∧ ∃ failure, h.WorkerFails w failure ∧ failure.error = .execution cause := by
  have happend (hw' : (h.workers ++ [Worker.started])[w]? = some (.finished (.error cause))) :
      h.workers[w]? = some (.finished (.error cause)) := by
    rcases getElem?_of_append_singleton hw' with hw | ⟨-, heq⟩
    · exact hw
    · cases heq
  cases hstep with
  | create hc => exact .inl (happend hw')
  | job hj hjob =>
    cases hjob with
    | chain hcrash hnext => exact .inl (happend hw')
    | _ => exact .inl hw'
  | @worker v worker h' hv hworker =>
    by_cases heq : v = w
    · subst heq
      cases hworker with
      | connectFails hopen hconnect =>
        cases eq_of_getElem?_set_self hv hw'
        exact .inr ⟨rfl, _, .connect hv hopen hconnect, rfl⟩
      | executeFails hexecute =>
        cases eq_of_getElem?_set_self hv hw'
        exact .inr ⟨rfl, _, .execute hv hexecute, rfl⟩
      | _ => cases eq_of_getElem?_set_self hv hw'
    · left
      cases hworker <;> exact (List.getElem?_set_ne heq).symm.trans hw'
  | _ => exact .inl hw'

theorem exists_workerFails {factory : Factory} {idleTimeout start : Nat}
    (hrun : (Holder.new factory idleTimeout start).run as = some h) {cause : Fault}
    (hw : h.workers[w]? = some (.finished (.error cause))) :
    ∃ g now failure, (Holder.new factory idleTimeout start).Passes as g now (.worker w) ∧
      g.WorkerFails w failure ∧ failure.error = .execution cause := by
  refine run_induction (P := fun as h => h.workers[w]? = some (.finished (.error cause)) →
    ∃ g now failure, (Holder.new factory idleTimeout start).Passes as g now (.worker w) ∧
      g.WorkerFails w failure ∧ failure.error = .execution cause) ?_ ?_ hrun hw
  · intro hw
    cases hw
  · intro as g now a g' hg hstep ih hw'
    rcases hstep.workerFails hw' with hw | ⟨rfl, failure, hfails, heq⟩
    · obtain ⟨g₁, now₁, failure, hpass, hrest⟩ := ih hw
      exact ⟨g₁, now₁, failure, hpass.append _, hrest⟩
    · exact ⟨g, now, failure, passes_last hg, hfails, heq⟩

end

/-! ## Batch jobs that fail -/

/-- The next step of batch job `j` makes a call that fails. -/
inductive JobFails (h : Holder) (j : Nat) : Failure → Prop where
  /-- One of the row requests of the batch, or the one for the row after it. -/
  | nextRow {l : Lookahead} {k : Nat} {cause : Fault} (hj : h.jobs[j]? = some (.reading l))
      (hfrom : l.cursor.asked ≤ k) (hto : k < (l.readBatch h.batchLimit).2.cursor.asked)
      (hanswer : l.cursor.answer k = .fault cause) : JobFails h j (.nextRow cause)
  | columns {rows : List Row} {more : Bool} {l : Lookahead}
      (hj : h.jobs[j]? = some (.gathered rows more l)) (hcrash : l.cursor.columnsCrash = true) :
      JobFails h j .columns

/-- In the run, a call for the batch of job `j` fails: in the computation that the job waits for,
or in the job itself. -/
inductive BatchFails (h : Holder) (as : List (Nat × Action)) (j : Nat) (failure : Failure) :
    Prop where
  | compute {g g' : Holder} {now now' w : Nat} (hwaits : h.Passes as g now (.job j))
      (hj : g.jobs[j]? = some (.waiting w)) (hpass : h.Passes as g' now' (.worker w))
      (hfails : g'.WorkerFails w failure)
  | read {g : Holder} {now : Nat} (hpass : h.Passes as g now (.job j))
      (hfails : g.JobFails j failure)

section

variable {h h' g g' : Holder} {now j : Nat} {a : Action} {as : List (Nat × Action)}
  {failure : Failure} {result : JobResult}

theorem JobFails.step (hfails : h.JobFails j failure) (hstep : h.Step now (.job j) h') :
    ∃ result, h'.jobs[j]? = some (.finished result) ∧ result.error? = some failure.error := by
  cases hstep with
  | job hj' hjob =>
    have hset {next : Job} : (h.jobs.set j next)[j]? = some next := getElem?_set_self_of_some hj'
    cases hfails with
    | @nextRow l k cause hj hfrom hto hanswer =>
      cases Option.some.inj (hj.symm.trans hj')
      have hfault := ((l.asks_readBatch h.batchLimit).eq_some_iff cause).mpr
        ⟨k, hfrom, hto, hanswer⟩
      cases hjob with
      | read hread =>
        rw [hread] at hfault
        cases hfault
      | readFailed hread =>
        rw [hread] at hfault
        cases hfault
        exact ⟨_, hset, rfl⟩
    | columns hj hcrash =>
      cases Option.some.inj (hj.symm.trans hj')
      cases hjob with
      | crash hcrash' => exact ⟨_, hset, rfl⟩
      | goOn hcrash' | chain hcrash' hnext | drain hcrash' hnext =>
        cases hcrash.symm.trans hcrash'

/-- A job waits until its computation is finished, and fails if that one has. -/
theorem Step.waited (hstep : h.Step now (.job j) h') {w : Nat}
    (hj : h.jobs[j]? = some (.waiting w)) :
    ∃ outcome, h.workers[w]? = some (.finished outcome) ∧
      ∀ cause, outcome = .error cause → h'.jobs[j]? = some (.finished (.failed cause)) := by
  cases hstep with
  | job hj' hjob =>
    cases Option.some.inj (hj.symm.trans hj')
    cases hjob with
    | computed hworker => exact ⟨_, hworker, nofun⟩
    | computeFailed hworker =>
      refine ⟨_, hworker, ?_⟩
      rintro cause ⟨⟩
      exact getElem?_set_self_of_some hj

/-- A job fails only if its computation has failed, or by a call of its own that fails. -/
theorem Step.jobFails (hstep : h.Step now a h') {error : TaskError}
    (hj' : h'.jobs[j]? = some (.finished result)) (herror : result.error? = some error) :
    h.jobs[j]? = some (.finished result) ∨
      a = .job j ∧ ((∃ failure, h.JobFails j failure ∧ failure.error = error) ∨
        ∃ w cause, h.jobs[j]? = some (.waiting w) ∧
          h.workers[w]? = some (.finished (.error cause)) ∧ error = .execution cause) := by
  have happend {job : Job} (hjob : ∀ result, job ≠ .finished result)
      (hj' : (h.jobs ++ [job])[j]? = some (.finished result)) :
      h.jobs[j]? = some (.finished result) := by
    rcases getElem?_of_append_singleton hj' with hj | ⟨-, heq⟩
    · exact hj
    · exact absurd heq (hjob result)
  cases hstep with
  | create hc => exact .inl (happend (by intro result heq; cases heq) hj')
  | @start c timeout e source hc =>
    exact .inl (happend (by intro result heq; cases source <;> cases heq) hj')
  | expire hc | parkClosed hc => exact .inl ((h.keepsJobs_abort _).finished_iff.mp hj')
  | abortJobs hc => exact .inl ((h.keepsJobs_abort?_abort? _ _).finished_iff.mp hj')
  | @job i job h' hi hjob =>
    by_cases heq : i = j
    · subst heq
      cases hjob with
      | computeFailed hworker =>
        cases eq_of_getElem?_set_self hi hj'
        cases herror
        exact .inr ⟨rfl, .inr ⟨_, _, hi, hworker, rfl⟩⟩
      | @readFailed l next cause hread =>
        cases eq_of_getElem?_set_self hi hj'
        cases herror
        have hasks := (l.asks_readBatch h.batchLimit).eq_some_iff cause
        obtain ⟨k, hfrom, hto, hanswer⟩ := hasks.mp (by rw [hread]; rfl)
        exact .inr ⟨rfl, .inl ⟨_, .nextRow hi hfrom hto hanswer, rfl⟩⟩
      | crash hcrash =>
        cases eq_of_getElem?_set_self hi hj'
        cases herror
        exact .inr ⟨rfl, .inl ⟨_, .columns hi hcrash, rfl⟩⟩
      | goOn hcrash | chain hcrash hnext | drain hcrash hnext =>
        cases eq_of_getElem?_set_self hi hj'
        cases herror
      | _ => cases eq_of_getElem?_set_self hi hj'
    · left
      cases hjob <;> exact (List.getElem?_set_ne heq).symm.trans hj'
  | worker hw hworker => cases hworker <;> exact .inl hj'
  | _ => exact .inl hj'

/-- Once a call for its batch has failed, the job has failed. -/
theorem BatchFails.error?_eq (hfails : h.BatchFails as j failure) (hrun : h.run as = some h') :
    ∃ result, h'.jobs[j]? = some (.finished result) ∧ result.error? = some failure.error := by
  cases hfails with
  | compute hwaits hj hpass hfails =>
    obtain ⟨-, g₁, after, -, hstep, hafter⟩ := hwaits.split hrun
    obtain ⟨-, g₂, after', -, hstep', hafter'⟩ := hpass.split hrun
    obtain ⟨cause, hw, heq⟩ := hfails.step (step_of_eq_some hstep')
    obtain ⟨outcome, houtcome, hfailed⟩ := (step_of_eq_some hstep).waited hj
    -- what the job found is what the computation has given in the end
    have hend := run_worker_finished hafter' hw
    have hend' := run_worker_finished hafter
      ((step_of_eq_some hstep).getElem?_workers_finished houtcome)
    cases hend'.symm.trans hend
    exact ⟨_, run_job_finished hafter (hfailed cause rfl), heq ▸ rfl⟩
  | read hpass hfails =>
    obtain ⟨-, g₁, after, -, hstep, hafter⟩ := hpass.split hrun
    obtain ⟨result, hj, herror⟩ := hfails.step (step_of_eq_some hstep)
    exact ⟨result, run_job_finished hafter hj, herror⟩

theorem BatchFails.append (hfails : h.BatchFails as j failure) (bs : List (Nat × Action)) :
    h.BatchFails (as ++ bs) j failure := by
  cases hfails with
  | compute hwaits hj hpass hfails =>
    exact .compute (hwaits.append bs) hj (hpass.append bs) hfails
  | read hpass hfails => exact .read (hpass.append bs) hfails

/-- A job that has failed did so by a call for its batch. -/
theorem exists_batchFails {factory : Factory} {idleTimeout start : Nat}
    (hrun : (Holder.new factory idleTimeout start).run as = some h) {error : TaskError}
    (hj : h.jobs[j]? = some (.finished result)) (herror : result.error? = some error) :
    ∃ failure, (Holder.new factory idleTimeout start).BatchFails as j failure ∧
      failure.error = error := by
  refine run_induction (P := fun as h => h.jobs[j]? = some (.finished result) →
    ∃ failure, (Holder.new factory idleTimeout start).BatchFails as j failure ∧
      failure.error = error) ?_ ?_ hrun hj
  · intro hj
    cases hj
  · intro as g now a g' hg hstep ih hj'
    rcases hstep.jobFails hj' herror with
      hj | ⟨rfl, ⟨failure, hfails, heq⟩ | ⟨w, cause, hj, hw, rfl⟩⟩
    · obtain ⟨failure, hfails, heq⟩ := ih hj
      exact ⟨failure, hfails.append _, heq⟩
    · exact ⟨failure, .read (passes_last hg) hfails, heq⟩
    · obtain ⟨g₁, now₁, failure, hpass, hfails, heq⟩ := exists_workerFails hg hw
      exact ⟨failure, .compute (passes_last hg) hj (hpass.append _) hfails, heq⟩

end

/-! ## Fetches whose work fails -/

/-- In the run, a call fails that is the concern of fetch `c`: the one for the task that the fetch
makes, or one for the batch that it waits for, whichever fetch has started the job. -/
inductive FetchFails (h : Holder) (as : List (Nat × Action)) (c : Nat) : Failure → Prop where
  | create {g : Holder} {now timeout : Nat} {message : String} (hpass : h.Passes as g now (.call c))
      (hc : g.calls[c]? = some (.fetchStart timeout)) (hlife : g.lifecycle = .prepared)
      (hcreate : g.factory.createError = some message) : FetchFails h as c (.create message)
  /-- The fetch takes what the job gave, which nobody has aborted. -/
  | batch {g : Holder} {now j deadline : Nat} {failure : Failure}
      (hpass : h.Passes as g now (.call c)) (hc : g.calls[c]? = some (.fetchWait j deadline))
      (hjob : g.jobs[j]? ≠ some .aborted) (hfails : h.BatchFails as j failure) :
      FetchFails h as c failure

section

variable {h h' g g' : Holder} {now c : Nat} {a : Action} {as : List (Nat × Action)}
  {failure : Failure} {result : FetchResult}

theorem FetchFails.append (hfails : h.FetchFails as c failure) (bs : List (Nat × Action)) :
    h.FetchFails (as ++ bs) c failure := by
  cases hfails with
  | create hpass hc hlife hcreate => exact .create (hpass.append bs) hc hlife hcreate
  | batch hpass hc hjob hfails => exact .batch (hpass.append bs) hc hjob (hfails.append bs)

/-- A fetch that cannot make its task brings the error. -/
theorem Step.brings_create (hstep : h.Step now (.call c) h') {timeout : Nat} {message : String}
    (hc : h.calls[c]? = some (.fetchStart timeout)) (hlife : h.lifecycle = .prepared)
    (hcreate : h.factory.createError = some message) :
    h'.calls[c]? = some (.fetchTouch (.error (.execution (.failed message)))) := by
  cases hstep with
  | createFails hc' hfree hlife' hcreate' =>
    cases hcreate.symm.trans hcreate'
    exact getElem?_set_self_of_some hc
  | create hc' hfree hlife' hcreate' => cases hcreate.symm.trans hcreate'
  | resume hc' hfree hlife' | start hc' hfree hlife' | startNothing hc' hfree hlife'
  | startClosed hc' hfree hlife' => cases hlife.symm.trans hlife'
  | _ => cases Option.some.inj (hc.symm.trans ‹h.calls[_]? = some _›)

/-- A fetch takes what its job gave: an error, if the job failed, and nothing if it was aborted. -/
theorem Step.takes (hstep : h.Step now (.call c) h') {j deadline : Nat}
    (hc : h.calls[c]? = some (.fetchWait j deadline)) :
    (h.jobs[j]? = some .aborted ∧ h'.calls[c]? = some (.fetchTouch (.error .closed))) ∨
      ∃ outcome, h.jobs[j]? = some (.finished outcome) ∧ ∀ error, outcome.error? = some error →
        h'.calls[c]? = some (.close true (.fetch (.error error))) := by
  have hset {next : Stage} : (h.calls.set c next)[c]? = some next := getElem?_set_self_of_some hc
  cases hstep with
  | receive hc' hjob =>
    cases Option.some.inj (hc.symm.trans hc')
    exact .inr ⟨_, hjob, nofun⟩
  | receiveFailed hc' hjob | receiveCrashed hc' hjob =>
    cases Option.some.inj (hc.symm.trans hc')
    refine .inr ⟨_, hjob, ?_⟩
    rintro error ⟨⟩
    exact hset
  | receiveAborted hc' hjob =>
    cases Option.some.inj (hc.symm.trans hc')
    exact .inl ⟨hjob, hset⟩
  | _ => cases Option.some.inj (hc.symm.trans ‹h.calls[_]? = some _›)

/-- A fetch whose work fails returns the error. -/
theorem FetchFails.eq_error (hfails : h.FetchFails as c failure) (hrun : h.run as = some h')
    (hc' : h'.calls[c]? = some (.returned (.fetched result))) : result = .error failure.error := by
  cases hfails with
  | create hpass hc hlife hcreate =>
    obtain ⟨-, g₁, after, -, hstep, hafter⟩ := hpass.split hrun
    exact run_brings hafter ((step_of_eq_some hstep).brings_create hc hlife hcreate) rfl hc'
  | batch hpass hc hjob hfails =>
    obtain ⟨-, g₁, after, -, hstep, hafter⟩ := hpass.split hrun
    have hstep := step_of_eq_some hstep
    rcases hstep.takes hc with ⟨haborted, -⟩ | ⟨outcome, hfinished, hbrings⟩
    · exact absurd haborted hjob
    · obtain ⟨outcome', hend, herror⟩ := hfails.error?_eq hrun
      have hend' := run_job_finished hafter (hstep.getElem?_jobs_finished hfinished)
      cases hend'.symm.trans hend
      exact run_brings hafter (hbrings _ herror) rfl hc'

/-- A fetch brings an error of its work since the task could not be made, or its job failed. -/
theorem Step.brings (hstep : h.Step now a h') {s' : Stage} {error : TaskError}
    (hc' : h'.calls[c]? = some s') (hs' : s'.Brings (.error error)) (herror : error.IsOfWork) :
    (∃ s, h.calls[c]? = some s ∧ s.Brings (.error error)) ∨
      a = .call c ∧
        ((∃ timeout message, h.calls[c]? = some (.fetchStart timeout) ∧ h.lifecycle = .prepared ∧
            h.factory.createError = some message ∧ error = .execution (.failed message)) ∨
          ∃ j deadline outcome, h.calls[c]? = some (.fetchWait j deadline) ∧
            h.jobs[j]? = some (.finished outcome) ∧ outcome.error? = some error) := by
  by_cases hmover : a.mover? = some c
  · cases hstep with
    | begin operation => cases hmover
    | job hj | worker hw => cases hmover
    | createFails hc hfree hlife hcreate =>
      obtain rfl := eq_of_mover hmover hc hc'
      cases hmover
      cases hs'
      exact .inr ⟨rfl, .inl ⟨_, _, hc, hlife, hcreate, rfl⟩⟩
    | receiveFailed hc hjob | receiveCrashed hc hjob =>
      obtain rfl := eq_of_mover hmover hc hc'
      cases hmover
      cases hs'
      exact .inr ⟨rfl, .inr ⟨_, _, _, hc, hjob, rfl⟩⟩
    -- what the call brings stays the same
    | touch hc | unlock hc | closeExecuted hc | cancelTask hc =>
      obtain rfl := eq_of_mover hmover hc hc'
      cases hmover
      exact .inl ⟨_, hc, hs'⟩
    | closeClosed hc | closePrepared hc | closeTask hc =>
      obtain rfl := eq_of_mover hmover hc hc'
      cases hmover
      exact .inl ⟨_, hc, AfterClose.brings_stage.mp hs'⟩
    | abortJobs hc =>
      obtain rfl := eq_of_mover hmover hc hc'
      cases hmover
      refine .inl ⟨_, hc, ?_⟩
      split at hs' <;> exact hs'
    | _ =>
      -- it brings a batch, an error of another kind, or nothing
      obtain rfl := eq_of_mover hmover ‹h.calls[_]? = some _› hc'
      cases hs'
      all_goals cases herror
  · rcases hstep.getElem?_calls_before hmover hc' with hc | ⟨operation, -, rfl⟩
    · exact .inl ⟨s', hc, hs'⟩
    · cases operation <;> cases hs'

/-- A fetch that brings an error of its work has met a failed call. -/
theorem exists_fetchFails {factory : Factory} {idleTimeout start : Nat}
    (hrun : (Holder.new factory idleTimeout start).run as = some h) {s : Stage} {error : TaskError}
    (hc : h.calls[c]? = some s) (hs : s.Brings (.error error)) (herror : error.IsOfWork) :
    ∃ failure, (Holder.new factory idleTimeout start).FetchFails as c failure ∧
      failure.error = error := by
  refine run_induction (P := fun as h => ∀ s, h.calls[c]? = some s → s.Brings (.error error) →
    ∃ failure, (Holder.new factory idleTimeout start).FetchFails as c failure ∧
      failure.error = error) ?_ ?_ hrun s hc hs
  · intro s hc
    cases hc
  · intro as g now a g' hg hstep ih s' hc' hs'
    rcases hstep.brings hc' hs' herror with
      ⟨s, hc, hs⟩ | ⟨rfl, ⟨timeout, message, hc, hlife, hcreate, rfl⟩ |
        ⟨j, deadline, outcome, hc, hjob, houtcome⟩⟩
    · obtain ⟨failure, hfails, heq⟩ := ih s hc hs
      exact ⟨failure, hfails.append _, heq⟩
    · exact ⟨_, .create (passes_last hg) hc hlife hcreate, rfl⟩
    · obtain ⟨failure, hfails, heq⟩ := exists_batchFails hg hjob houtcome
      refine ⟨failure, .batch (passes_last hg) hc ?_ (hfails.append _), heq⟩
      rw [hjob]
      exact nofun

end

/-- What a fetch returns if its work fails, in every run: whether the call that failed was in the
first computation or a later one, for a row of the batch or for the row after it, and whoever
has started the job. Making the task, connecting, executing and asking for a row end in an
execution error with the cause, a batch job that broke off in a join error, and no fetch returns
such an error without a failed call. A fetch whose job was aborted finds the task closed. -/
theorem failure_of_run {factory : Factory} {idleTimeout start c : Nat}
    {as : List (Nat × Action)} {h : Holder} {result : FetchResult}
    (hrun : (Holder.new factory idleTimeout start).run as = some h)
    (hreply : h.reply? c = some (.fetched result)) :
    (∀ failure, (Holder.new factory idleTimeout start).FetchFails as c failure →
      result = .error failure.error) ∧
    (∀ error, result = .error error → error.IsOfWork →
      ∃ failure, (Holder.new factory idleTimeout start).FetchFails as c failure ∧
        failure.error = error) ∧
    ∀ g now j deadline, (Holder.new factory idleTimeout start).Passes as g now (.call c) →
      g.calls[c]? = some (.fetchWait j deadline) → g.jobs[j]? = some .aborted →
      g.lifecycle = .closed ∧ result = .error .closed := by
  have hc := reply?_eq_some_iff.mp hreply
  refine ⟨fun failure hfails => hfails.eq_error hrun hc, ?_, ?_⟩
  · rintro error rfl herror
    exact exists_fetchFails hrun hc rfl herror
  · intro g now j deadline hpass hwait haborted
    obtain ⟨before, g', after, hbefore, hstep, hafter⟩ := hpass.split hrun
    have hclosed := (run_honest hbefore).closed_of_aborted hwait haborted
    refine ⟨Lifecycle.state_eq_closed_iff.mp hclosed, ?_⟩
    rcases (step_of_eq_some hstep).takes hwait with ⟨-, hbrings⟩ | ⟨outcome, hfinished, -⟩
    · exact run_brings hafter hbrings rfl hc
    · cases haborted.symm.trans hfinished

/-- A task whose second cursor fails for the row after its first. -/
def failsAhead : Factory :=
  .ofScript 1
    [{ ScriptedRun.empty with rows := 1, next := true },
      { ScriptedRun.empty with rows := 2, rowError := some 1 }]

/-- The second fetch is dropped while the second computation runs, and the third takes its job. -/
def resumedFetch : List (Nat × Action) :=
  [.begin (.fetch 10), .call 0, .call 0, .worker 0, .worker 0, .worker 0, .worker 0,
    .job 0, .job 0, .job 0, .call 0, .call 0, .call 0, .call 0,
    .begin (.fetch 10), .call 1, .call 1, .worker 1, .abandon 1, .call 1, .call 1,
    .begin (.fetch 10), .call 2, .call 2, .worker 1, .worker 1, .worker 1, .job 1, .job 1,
    .call 2, .call 2, .call 2, .call 2, .call 2, .call 2, .call 2].map fun a => (0, a)

theorem failure_of_run_resumedFetch :
    ∃ h, (Holder.new failsAhead 60 0).run resumedFetch = some h ∧
      h.reply? 1 = some .abandoned ∧
      h.reply? 2 = some (.fetched (.error (.execution (.failed "row error")))) ∧
      ∃ failure, (Holder.new failsAhead 60 0).FetchFails resumedFetch 2 failure ∧
        failure.error = .execution (.failed "row error") := by
  obtain ⟨h, hrun, hdropped, hreply⟩ : ∃ h,
      (Holder.new failsAhead 60 0).run resumedFetch = some h ∧
      h.reply? 1 = some .abandoned ∧
      h.reply? 2 = some (.fetched (.error (.execution (.failed "row error")))) :=
    ⟨_, rfl, rfl, rfl⟩
  obtain ⟨-, hfailed, -⟩ := failure_of_run hrun hreply
  exact ⟨h, hrun, hdropped, hreply, hfailed _ rfl trivial⟩

/-- A task whose statement breaks off. -/
def breaksOff : Factory :=
  .ofScript 1 [{ ScriptedRun.empty with crash := true }]

/-- A fetch of it. -/
def brokenFetch : List (Nat × Action) :=
  [.begin (.fetch 10), .call 0, .call 0, .worker 0, .worker 0, .worker 0, .job 0,
    .call 0, .call 0, .call 0, .call 0, .call 0, .call 0, .call 0].map fun a => (0, a)

/-- A computation that breaks off does not end in a join error. -/
theorem not_join_of_isCrash :
    ¬ ∀ (factory : Factory) (idleTimeout start c : Nat) (as : List (Nat × Action)) (h : Holder)
        (result : FetchResult) (failure : Failure),
        (Holder.new factory idleTimeout start).run as = some h →
        h.reply? c = some (.fetched result) →
        (Holder.new factory idleTimeout start).FetchFails as c failure →
        failure.isCrash = true → result = .error .join := by
  intro hall
  obtain ⟨h, hrun, hreply⟩ : ∃ h, (Holder.new breaksOff 60 0).run brokenFetch = some h ∧
      h.reply? 0 = some (.fetched (.error (.execution .crashed))) := ⟨_, rfl, rfl⟩
  obtain ⟨failure, hfails, heq⟩ :=
    exists_fetchFails hrun (reply?_eq_some_iff.mp hreply) rfl trivial
  have hcrash : failure.isCrash = true := by
    cases failure with
    | columns => rfl
    | create message => cases heq
    | connect cause | execute cause | nextRow cause =>
      cases heq
      rfl
  cases hall breaksOff 60 0 0 brokenFetch h _ failure hrun hreply hfails hcrash

end Holder

end PagedQuery.Task
