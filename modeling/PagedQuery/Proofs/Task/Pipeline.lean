import PagedQuery.Proofs.Task.Custody
import PagedQuery.Proofs.Task.Stream

/-!
# Computations and batch jobs

As long as nothing fails, the computations of an open task come one after the
other, over one connection, and each gives the cursor of its number. A batch
job works at one place of the stream: it waits for the cursor of the place,
reads the rows there, and leaves off where the next batch begins.

* `Computations`: the workers of an open task;
* `SourceAt`, `JobAt`, `OutcomeAt`: row sources, jobs and batches at a place of the stream;
* `Holder.Pipeline`: everything that an open task works on;
* `Holder.Pipeline.job_step`, `Holder.Pipeline.worker_step`: the work goes on at its place.
-/

namespace PagedQuery.Task

def Worker.isFinished : Worker → Bool
  | .finished _ => true
  | _ => false

def Job.isFinished : Job → Bool
  | .finished _ => true
  | _ => false

/-! ## Computations -/

/-- How far the `w`-th computation has got, if the ones before it are finished. -/
def WorkerAt (f : Factory) (session : Session) (w : Nat) : Worker → Prop
  | .started =>
    session.executions = List.replicate w 0 ∧
      (session.connection = some 0 ∨ session.connection = none ∧ session.attempts = 0)
  | .connected connection =>
    connection = 0 ∧ session.connection = some 0 ∧ session.executions = List.replicate w 0
  | .executing connection execution =>
    connection = 0 ∧ execution = w ∧ session.connection = some 0 ∧
      session.executions = List.replicate (w + 1) 0
  | .executed cursor =>
    f.backend.execute 0 w = .ok cursor ∧ session.connection = some 0 ∧
      session.executions = List.replicate (w + 1) 0
  | .finished (.ok cursor) =>
    f.backend.execute 0 w = .ok cursor ∧ session.connection = some 0 ∧
      session.executions = List.replicate (w + 1) 0
  | .finished (.error _) => False

/-- The computations of an open task: all are finished but perhaps the latest. -/
structure Computations (f : Factory) (session : Session) (workers : List Worker) : Prop where
  answers : ∀ w, w < workers.length → ∃ c, f.backend.execute 0 w = .ok c
  earlier : ∀ w worker, workers[w]? = some worker → w + 1 < workers.length →
    worker.isFinished = true
  latest : ∀ w worker, workers[w]? = some worker → w + 1 = workers.length →
    WorkerAt f session w worker

namespace Computations

variable {f : Factory} {session session' : Session} {workers : List Worker} {w : Nat}
  {worker worker' : Worker}

/-- The latest computation goes on. -/
theorem set (h : Computations f session workers) (hw : w + 1 = workers.length)
    (hat : WorkerAt f session' w worker') :
    Computations f session' (workers.set w worker') where
  answers := by
    rw [List.length_set]
    exact h.answers
  earlier := by
    intro w' other hother hlt
    rw [List.length_set] at hlt
    have hne : w ≠ w' := by omega
    rw [List.getElem?_set_ne hne] at hother
    exact h.earlier w' other hother hlt
  latest := by
    intro w' other hother hlast
    rw [List.length_set] at hlast
    obtain rfl : w = w' := by omega
    have hlt : w < workers.length := by omega
    rw [List.getElem?_set_self hlt] at hother
    cases hother
    exact hat

/-- Once all computations are finished, another one may start. -/
theorem append (h : Computations f session workers) {c : Cursor}
    (hfinished : workers[w]? = some (.finished (.ok c))) (hw : w + 1 = workers.length)
    {c' : Cursor} (hexecute : f.backend.execute 0 (w + 1) = .ok c') :
    Computations f session (workers ++ [.started]) where
  answers := by
    intro w' hlt
    rw [List.length_append, List.length_singleton, ← hw] at hlt
    rcases Nat.lt_succ_iff_lt_or_eq.mp hlt with hlt | rfl
    · exact h.answers w' (hw ▸ hlt)
    · exact ⟨c', hexecute⟩
  earlier := by
    intro w' other hother hlt
    rw [List.length_append, List.length_singleton] at hlt
    have hlt' : w' < workers.length := by omega
    rw [List.getElem?_append_left hlt'] at hother
    rcases Nat.lt_or_ge (w' + 1) workers.length with hbefore | hlast
    · exact h.earlier w' other hother hbefore
    · obtain rfl : w = w' := by omega
      cases Option.some.inj (hfinished.symm.trans hother)
      rfl
  latest := by
    intro w' other hother hlast
    rw [List.length_append, List.length_singleton] at hlast
    obtain rfl : w' = workers.length := by omega
    rw [List.getElem?_append_right (Nat.le_refl _), Nat.sub_self] at hother
    cases hother
    obtain ⟨-, hconnection, hexecutions⟩ := h.latest w _ hfinished hw
    rw [← hw]
    exact ⟨hexecutions, .inl hconnection⟩

end Computations

/-- The cursor of a place has been computed, and no other computation has started since. -/
structure Computed (workers : List Worker) (p : Position) : Prop where
  length : workers.length = p.index + 1
  finished : workers[p.index]? = some (.finished (.ok p.cursor))

namespace Holder

variable {h h' : Holder}

/-- A computation that goes on is the latest one. -/
theorem WorkerStep.eq_latest {w : Nat} {worker : Worker}
    (hcomputations : Computations h.factory h.session h.workers)
    (hw : h.workers[w]? = some worker) (hstep : h.WorkerStep w worker h') :
    w + 1 = h.workers.length := by
  have hlt := (List.getElem?_eq_some_iff.mp hw).1
  rcases Nat.lt_or_ge (w + 1) h.workers.length with hbefore | hlast
  · have hfinished := hcomputations.earlier w worker hw hbefore
    cases hstep <;> cases hfinished
  · exact Nat.le_antisymm hlt hlast

theorem WorkerStep.computations (hreliable : h.factory.Reliable) {w : Nat} {worker : Worker}
    (hcomputations : Computations h.factory h.session h.workers)
    (hw : h.workers[w]? = some worker) (hstep : h.WorkerStep w worker h') :
    Computations h'.factory h'.session h'.workers := by
  have hlast := hstep.eq_latest hcomputations hw
  have hat := hcomputations.latest w worker hw hlast
  cases hstep with
  | reuse hopen =>
    obtain ⟨hexecutions, hconnection | ⟨hnone, -⟩⟩ := hat
    · cases Option.some.inj (hopen.symm.trans hconnection)
      exact hcomputations.set hlast ⟨rfl, hconnection, hexecutions⟩
    · rw [hopen] at hnone
      cases hnone
  | connect hopen hconnect =>
    obtain ⟨hexecutions, hconnection | ⟨-, hattempts⟩⟩ := hat
    · rw [hopen] at hconnection
      cases hconnection
    · exact hcomputations.set hlast ⟨hattempts, congrArg some hattempts, hexecutions⟩
  | connectFails hopen hconnect =>
    obtain ⟨-, hconnection | ⟨-, hattempts⟩⟩ := hat
    · rw [hopen] at hconnection
      cases hconnection
    · rw [hattempts, hreliable.connect] at hconnect
      cases hconnect
  | execute =>
    obtain ⟨rfl, hconnection, hexecutions⟩ := hat
    refine hcomputations.set hlast ⟨rfl, ?_, hconnection, ?_⟩
    · rw [hexecutions, List.count_replicate_self]
    · change h.session.executions ++ [0] = _
      rw [hexecutions, List.replicate_succ']
  | executed hexecute =>
    obtain ⟨rfl, rfl, hconnection, hexecutions⟩ := hat
    exact hcomputations.set hlast ⟨hexecute, hconnection, hexecutions⟩
  | executeFails hexecute =>
    obtain ⟨rfl, rfl, -, -⟩ := hat
    obtain ⟨c, hanswer⟩ := hcomputations.answers _ (List.getElem?_eq_some_iff.mp hw).1
    rw [hanswer] at hexecute
    cases hexecute
  | opened => exact hcomputations.set hlast hat

/-- A computation that goes on is not one that is finished. -/
theorem WorkerStep.computed {w : Nat} {worker : Worker} {p : Position}
    (hw : h.workers[w]? = some worker) (hstep : h.WorkerStep w worker h')
    (hcomputed : Computed h.workers p) : Computed h'.workers p := by
  have hne : w ≠ p.index := by
    rintro rfl
    cases Option.some.inj (hw.symm.trans hcomputed.finished)
    cases hstep
  obtain ⟨hlength, hfinished⟩ := hcomputed
  cases hstep <;> exact ⟨by simpa [setWorker] using hlength,
    by simpa [setWorker, List.getElem?_set_ne hne] using hfinished⟩

theorem WorkerStep.length_workers {w : Nat} {worker : Worker}
    (hstep : h.WorkerStep w worker h') : h'.workers.length = h.workers.length := by
  cases hstep <;> exact List.length_set

end Holder

/-! ## Row sources and jobs -/

/-- The next batch from a row source is the one at the place. -/
def SourceAt (workers : List Worker) (p : Position) : RowSource → Prop
  | .computing w => w = p.index ∧ p.offset = 0 ∧ workers.length = p.index + 1
  | .opened cursor => cursor.At p.cursor p.offset ∧ Computed workers p

/-- The batch is the one at the place, and the next one comes from the source. -/
inductive OutcomeAt (f : Factory) (workers : List Worker) (p : Position) (batch : Batch) :
    Option RowSource → Prop where
  | next {source : RowSource} {q : Position} (hfollows : Follows f p batch (some q))
      (hsource : SourceAt workers q source) : OutcomeAt f workers p batch (some source)
  | last (hfollows : Follows f p batch none) (hcomputed : Computed workers p) :
      OutcomeAt f workers p batch none

/-- The job reads the batch at the place. -/
def JobAt (f : Factory) (workers : List Worker) (p : Position) : Job → Prop
  | .waiting w => SourceAt workers p (.computing w)
  | .reading cursor => SourceAt workers p (.opened cursor)
  | .gathered rows more cursor =>
    rows = p.cursor.rowsFrom p.offset (max f.fetchSize 1) ∧
      more = (p.cursor.rowAt? (p.offset + rows.length)).isSome ∧
      cursor.At p.cursor (p.offset + rows.length) ∧ Computed workers p
  | .finished (.ready batch next) => OutcomeAt f workers p batch next
  | _ => False

theorem jobAt_ofSource {f : Factory} {workers : List Worker} {p : Position} {source : RowSource}
    (h : SourceAt workers p source) : JobAt f workers p (Holder.Job.ofSource source) := by
  cases source <;> exact h

section

variable {f : Factory} {workers workers' : List Worker} {p : Position}
  (hlength : workers'.length = workers.length)
  (hcomputed : ∀ p, Computed workers p → Computed workers' p)
include hlength hcomputed

theorem SourceAt.mono {source : RowSource} (h : SourceAt workers p source) :
    SourceAt workers' p source := by
  cases source with
  | computing w =>
    obtain ⟨hw, hoffset, hworkers⟩ := h
    exact ⟨hw, hoffset, hlength.trans hworkers⟩
  | opened cursor => exact ⟨h.1, hcomputed p h.2⟩

theorem OutcomeAt.mono {batch : Batch} {next : Option RowSource}
    (h : OutcomeAt f workers p batch next) : OutcomeAt f workers' p batch next := by
  cases h with
  | next hfollows hsource => exact .next hfollows (hsource.mono hlength hcomputed)
  | last hfollows hdone => exact .last hfollows (hcomputed p hdone)

theorem JobAt.mono {job : Job} (h : JobAt f workers p job) : JobAt f workers' p job := by
  cases job with
  | waiting w =>
    have hsource : SourceAt workers p (.computing w) := h
    exact hsource.mono hlength hcomputed
  | reading cursor =>
    have hsource : SourceAt workers p (.opened cursor) := h
    exact hsource.mono hlength hcomputed
  | gathered rows more cursor =>
    obtain ⟨hrows, hmore, hat, hdone⟩ := h
    exact ⟨hrows, hmore, hat, hcomputed p hdone⟩
  | finished result =>
    cases result with
    | ready batch next =>
      have houtcome : OutcomeAt f workers p batch next := h
      exact houtcome.mono hlength hcomputed
    | _ => cases h
  | aborted => cases h

end

/-! ## The work of an open task -/

/-- The stages of a call that has the outcome of a job, or closes the holder after it. -/
def Stage.settles : Stage → Bool
  | .fetchFinish .. => true
  | .close _ (.fetch _) => true
  | _ => false

namespace Holder

/-- Everything that an open task works on, if its next batch is the one at the place. -/
structure Pipeline (h : Holder) (e : Execution) (p : Position) : Prop where
  computations : Computations h.factory h.session h.workers
  source : ∀ source, e.source = some source → SourceAt h.workers p source
  job : ∀ j, e.batchJob = some j →
    ∃ job, h.jobs[j]? = some job ∧ JobAt h.factory h.workers p job
  others : ∀ j job, e.batchJob ≠ some j → h.jobs[j]? = some job → job.isFinished = true
  finish : ∀ batch next, .fetchFinish batch next ∈ h.calls →
    ∃ j, e.batchJob = some j ∧ h.jobs[j]? = some (.finished (.ready batch next))
  notClosing : ∀ cancel result, .close cancel (.fetch result) ∉ h.calls

namespace Pipeline

variable {h h' : Holder} {e e' : Execution} {p : Position}

/-- The batch that a call has received is the one at the place. -/
theorem outcomeAt (hpipe : h.Pipeline e p) {batch : Batch} {next : Option RowSource}
    (hmem : .fetchFinish batch next ∈ h.calls) :
    OutcomeAt h.factory h.workers p batch next := by
  obtain ⟨j, hj, hjob⟩ := hpipe.finish batch next hmem
  obtain ⟨job, hjob', hat⟩ := hpipe.job j hj
  cases Option.some.inj (hjob.symm.trans hjob')
  exact hat

/-- Once a call has received the batch, no job is left to work. -/
theorem isFinished (hpipe : h.Pipeline e p) {batch : Batch} {next : Option RowSource}
    (hmem : .fetchFinish batch next ∈ h.calls) {j : Nat} {job : Job}
    (hj : h.jobs[j]? = some job) : job.isFinished = true := by
  by_cases hbatch : e.batchJob = some j
  · obtain ⟨i, hi, hjob⟩ := hpipe.finish batch next hmem
    cases Option.some.inj (hbatch.symm.trans hi)
    cases Option.some.inj (hj.symm.trans hjob)
    rfl
  · exact hpipe.others j job hbatch hj

/-- The work does not change as long as no call gives or takes an outcome. -/
theorem frame (hpipe : h.Pipeline e p) (hfactory : h'.factory = h.factory)
    (hsession : h'.session = h.session) (hworkers : h'.workers = h.workers)
    (hjobs : h'.jobs = h.jobs) (hsource : e'.source = e.source) (hbatch : e'.batchJob = e.batchJob)
    (hsame : SameStages Stage.settles h.calls h'.calls) : h'.Pipeline e' p where
  computations := by
    rw [hfactory, hsession, hworkers]
    exact hpipe.computations
  source := by
    rw [hsource, hworkers]
    exact hpipe.source
  job := by
    rw [hbatch, hjobs, hfactory, hworkers]
    exact hpipe.job
  others := by
    rw [hbatch, hjobs]
    exact hpipe.others
  finish := by
    rw [hbatch, hjobs]
    intro batch next hmem
    exact hpipe.finish batch next ((hsame.mem_iff rfl).mp hmem)
  notClosing := by
    intro cancel result hmem
    exact hpipe.notClosing cancel result ((hsame.mem_iff rfl).mp hmem)

/-- A computation goes on. -/
theorem worker_step (hpipe : h.Pipeline e p) (hreliable : h.factory.Reliable) {w : Nat}
    {worker : Worker} (hw : h.workers[w]? = some worker) (hstep : h.WorkerStep w worker h') :
    h'.Pipeline e p := by
  have hlength := hstep.length_workers
  have hcomputed (q : Position) : Computed h.workers q → Computed h'.workers q :=
    hstep.computed hw
  have hcomputations := hstep.computations hreliable hpipe.computations hw
  have hframe : h'.factory = h.factory ∧ h'.jobs = h.jobs ∧ h'.calls = h.calls := by
    cases hstep <;> exact ⟨rfl, rfl, rfl⟩
  obtain ⟨hfactory, hjobs, hcalls⟩ := hframe
  constructor
  · exact hcomputations
  · intro source hsource
    exact (hpipe.source source hsource).mono hlength hcomputed
  · intro j hj
    obtain ⟨job, hjob, hat⟩ := hpipe.job j hj
    rw [hjobs, hfactory]
    exact ⟨job, hjob, hat.mono hlength hcomputed⟩
  · rw [hjobs]
    exact hpipe.others
  · rw [hjobs, hcalls]
    exact hpipe.finish
  · rw [hcalls]
    exact hpipe.notClosing

/-- The batch job goes on, perhaps with another computation. -/
theorem set_job_of_workers (hpipe : h.Pipeline e p) {j : Nat} {old job : Job}
    (hj : h.jobs[j]? = some old) (hold : old.isFinished = false) (hbatch : e.batchJob = some j)
    {workers : List Worker} (hcomputations : Computations h.factory h.session workers)
    (hsource : ∀ source, e.source = some source → SourceAt workers p source)
    (hat : JobAt h.factory workers p job) :
    ({ h with workers := workers }.setJob j job).Pipeline e p where
  computations := hcomputations
  source := hsource
  job := by
    intro i hi
    cases Option.some.inj (hbatch.symm.trans hi)
    refine ⟨job, ?_, hat⟩
    rw [setJob, getElem?_set_of_some hj, if_pos rfl]
  others := by
    intro i other hne hother
    have hij : j ≠ i := by
      rintro rfl
      exact hne hbatch
    rw [setJob, List.getElem?_set_ne hij] at hother
    exact hpipe.others i other hne hother
  finish := by
    intro batch next hmem
    have hfinished := hpipe.isFinished hmem hj
    rw [hold] at hfinished
    cases hfinished
  notClosing := hpipe.notClosing

theorem set_job (hpipe : h.Pipeline e p) {j : Nat} {old job : Job} (hj : h.jobs[j]? = some old)
    (hold : old.isFinished = false) (hbatch : e.batchJob = some j)
    (hat : JobAt h.factory h.workers p job) : (h.setJob j job).Pipeline e p :=
  hpipe.set_job_of_workers hj hold hbatch hpipe.computations hpipe.source hat

/-- A job goes on: it is the batch job, and it works at the place. -/
theorem job_step (hpipe : h.Pipeline e p) (hreliable : h.factory.Reliable)
    (hyields : h.factory.Yields p.index p.before p.cursor)
    (hsource : e.batchJob ≠ none → e.source = none) {j : Nat} {job : Job}
    (hj : h.jobs[j]? = some job) (hstep : h.JobStep j job h') : h'.Pipeline e p := by
  have hunfinished : job.isFinished = false := by
    cases hstep <;> rfl
  have hbatch : e.batchJob = some j := by
    refine Decidable.byContradiction fun hne => ?_
    have hfinished := hpipe.others j job hne hj
    rw [hunfinished] at hfinished
    cases hfinished
  obtain ⟨job', hj', hat⟩ := hpipe.job j hbatch
  cases Option.some.inj (hj.symm.trans hj')
  have hregular := hreliable.regular hyields
  cases hstep with
  | computed hworker =>
    obtain ⟨rfl, hoffset, hlength⟩ := hat
    have hexecute := (hpipe.computations.latest _ _ hworker hlength.symm).1
    have hcursor := Except.ok.inj (hexecute.symm.trans hyields.execute_eq)
    subst hcursor
    refine hpipe.set_job hj rfl hbatch ⟨?_, hlength, hworker⟩
    rw [hoffset]
    exact Lookahead.at_ofCursor _
  | computeFailed hworker =>
    obtain ⟨rfl, -, hlength⟩ := hat
    exact (hpipe.computations.latest _ _ hworker hlength.symm).elim
  | read hread =>
    obtain ⟨hcursor, hcomputed⟩ := hat
    obtain ⟨l, heq, hl⟩ := hcursor.readBatch_eq hregular h.batchLimit
    rw [hread] at heq
    cases heq
    exact hpipe.set_job hj rfl hbatch ⟨rfl, rfl, hl, hcomputed⟩
  | readFailed hread =>
    obtain ⟨l, heq, -⟩ := hat.1.readBatch_eq hregular h.batchLimit
    rw [hread] at heq
    cases heq
  | crash hcrash =>
    obtain ⟨-, -, hcursor, -⟩ := hat
    obtain ⟨m, heq⟩ := hcursor.exists_skip
    rw [heq] at hcrash
    cases hregular.columns.symm.trans hcrash
  | @goOn rows cursor hcrash =>
    obtain ⟨hrows, hmore, hcursor, hcomputed⟩ := hat
    obtain ⟨row, hrow⟩ := Option.isSome_iff_exists.mp hmore.symm
    have hsource : SourceAt h.workers (p.advance rows.length) (.opened cursor) :=
      ⟨hcursor, hcomputed.length, hcomputed.finished⟩
    exact hpipe.set_job hj rfl hbatch (.next (.goOn hrows hrow rfl) hsource)
  | chain hcrash hnext =>
    obtain ⟨hrows, hmore, hcursor, hcomputed⟩ := hat
    obtain ⟨m, heq⟩ := hcursor.exists_skip
    rw [heq] at hnext
    have hend := Option.not_isSome_iff_eq_none.mp (Bool.eq_false_iff.mp hmore.symm)
    obtain ⟨c, hexecute⟩ := hreliable.next hyields hend hnext
    refine hpipe.set_job_of_workers hj rfl hbatch
      (hpipe.computations.append hcomputed.finished hcomputed.length.symm hexecute) ?_ ?_
    · intro source hsome
      have hnone := hsource (by rw [hbatch]; exact Option.some_ne_none j)
      cases hsome.symm.trans hnone
    · refine .next (.chain hrows hend hnext hexecute rfl) ⟨hcomputed.length, rfl, ?_⟩
      rw [List.length_append, hcomputed.length]
      rfl
  | drain hcrash hnext =>
    obtain ⟨hrows, hmore, hcursor, hcomputed⟩ := hat
    obtain ⟨m, heq⟩ := hcursor.exists_skip
    rw [heq] at hnext
    have hend := Option.not_isSome_iff_eq_none.mp (Bool.eq_false_iff.mp hmore.symm)
    exact hpipe.set_job hj rfl hbatch (.last (.finish hrows hend hnext rfl) hcomputed)

/-! ### Steps of a call -/

/-- The task is made, and its first batch is asked for. -/
theorem of_create {c : Cursor} (hexecute : h.factory.backend.execute 0 0 = .ok c)
    (hsession : h.session = Session.empty) (hworkers : h.workers = [Worker.started])
    (hjobs : h.jobs = [Job.waiting 0]) (hnone : ∀ s ∈ h.calls, s.settles = false) :
    h.Pipeline { source := none, batchJob := some 0, pending := none } ⟨0, [], c, 0⟩ where
  computations := by
    rw [hsession, hworkers]
    constructor
    · intro w hlt
      obtain rfl := Nat.lt_one_iff.mp hlt
      exact ⟨c, hexecute⟩
    · intro w worker hw hlt
      exact absurd hlt (Nat.not_lt.mpr (Nat.le_add_left 1 w))
    · intro w worker hw hlast
      obtain rfl := Nat.succ.inj hlast
      cases hw
      exact ⟨rfl, .inr ⟨rfl, rfl⟩⟩
  source := by
    intro source hsource
    cases hsource
  job := by
    intro j hj
    cases hj
    rw [hjobs, hworkers]
    exact ⟨_, rfl, rfl, rfl, rfl⟩
  others := by
    intro j job hne hj
    rw [hjobs, List.getElem?_singleton] at hj
    split at hj
    · rename_i hzero
      exact absurd (congrArg some hzero.symm) hne
    · cases hj
  finish := by
    intro batch next hmem
    cases hnone _ hmem
  notClosing := by
    intro cancel result hmem
    cases hnone _ hmem

/-- A job for the next batch takes the stored source. -/
theorem start (hpipe : h.Pipeline e p) {source : RowSource} (hsource : e.source = some source)
    (hbatch : e.batchJob = none) (hfactory : h'.factory = h.factory)
    (hsession : h'.session = h.session) (hworkers : h'.workers = h.workers)
    (hjobs : h'.jobs = h.jobs ++ [Job.ofSource source])
    (hsame : SameStages Stage.settles h.calls h'.calls) :
    h'.Pipeline { e with source := none, batchJob := some h.jobs.length } p where
  computations := by
    rw [hfactory, hsession, hworkers]
    exact hpipe.computations
  source := by
    intro source hsource
    cases hsource
  job := by
    intro j hj
    cases hj
    refine ⟨Job.ofSource source, ?_, ?_⟩
    · rw [hjobs, List.getElem?_append_right (Nat.le_refl _), Nat.sub_self]
      rfl
    · rw [hworkers]
      exact jobAt_ofSource (hpipe.source source hsource)
  others := by
    intro j job hne hj
    have hlt : j < h.jobs.length := by
      have hlt := (List.getElem?_eq_some_iff.mp hj).1
      rw [hjobs, List.length_append, List.length_singleton] at hlt
      exact Nat.lt_of_le_of_ne (Nat.le_of_lt_succ hlt) fun heq => hne (congrArg some heq.symm)
    rw [hjobs, List.getElem?_append_left hlt] at hj
    refine hpipe.others j job ?_ hj
    rw [hbatch]
    exact Option.some_ne_none j |>.symm
  finish := by
    intro batch next hmem
    obtain ⟨j, hj, -⟩ := hpipe.finish batch next ((hsame.mem_iff rfl).mp hmem)
    cases hbatch.symm.trans hj
  notClosing := by
    intro cancel result hmem
    exact hpipe.notClosing cancel result ((hsame.mem_iff rfl).mp hmem)

/-- A call takes what the batch job gave. -/
theorem receive (hpipe : h.Pipeline e p) {c j : Nat} {batch : Batch} {next : Option RowSource}
    (hbatch : e.batchJob = some j) (hjob : h.jobs[j]? = some (.finished (.ready batch next))) :
    (h.goTo c (.fetchFinish batch next)).Pipeline e p where
  computations := hpipe.computations
  source := hpipe.source
  job := hpipe.job
  others := hpipe.others
  finish := by
    intro batch' next' hmem
    rcases List.mem_or_eq_of_mem_set hmem with hmem | heq
    · exact hpipe.finish batch' next' hmem
    · cases heq
      exact ⟨j, hbatch, hjob⟩
  notClosing := by
    intro cancel result hmem
    rcases List.mem_or_eq_of_mem_set hmem with hmem | heq
    · exact hpipe.notClosing cancel result hmem
    · cases heq

/-- The batch is accepted, and the next one is read from where it leaves off. -/
theorem accept (hpipe : h.Pipeline e p) {batch : Batch} {source : RowSource}
    (hmem : .fetchFinish batch (some source) ∈ h.calls) {q : Position}
    (hsource : SourceAt h.workers q source) (hfactory : h'.factory = h.factory)
    (hsession : h'.session = h.session) (hworkers : h'.workers = h.workers)
    (hjobs : h'.jobs = h.jobs) (hnone : ∀ s ∈ h'.calls, s.settles = false) :
    h'.Pipeline { e with batchJob := none, source := some source } q where
  computations := by
    rw [hfactory, hsession, hworkers]
    exact hpipe.computations
  source := by
    intro source' hsource'
    cases hsource'
    rw [hworkers]
    exact hsource
  job := by
    intro j hj
    cases hj
  others := by
    intro j job hne hj
    rw [hjobs] at hj
    exact hpipe.isFinished hmem hj
  finish := by
    intro batch next hmem
    cases hnone _ hmem
  notClosing := by
    intro cancel result hmem
    cases hnone _ hmem

end Pipeline

end Holder

end PagedQuery.Task
