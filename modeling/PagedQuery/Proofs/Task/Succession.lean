import PagedQuery.Proofs.Task.Pipeline
import PagedQuery.Proofs.Task.Replies

/-!
# Computations in succession

Whatever fails and whoever interferes, the computations of a task come one
after the other: another one is started only by a batch job that has drained
the cursor of the latest. So all computations but the latest have given a
cursor, and whatever is still to be read is read from the latest.

* `Lookahead.Reads`, `Lookahead.Drains`: reading a cursor, and reading it to its end;
* `RowSource.IsLatest`, `Job.IsLatest`: sources and jobs that read from the latest computation;
* `Holder.Succession`, `Holder.run_succession`: the order of the computations in every run;
* `Holder.Step.started`: what has come before another computation.
-/

namespace PagedQuery.Task

/-! ## Reading a cursor to its end -/

namespace Lookahead

/-- The rows come from that cursor. -/
def Reads (l : Lookahead) (c : Cursor) : Prop :=
  ∃ n, l.cursor = c.skip n

/-- The last thing that the cursor was asked for was the row after its last one. -/
def Drains (l : Lookahead) (c : Cursor) : Prop :=
  l.peeked = none ∧ ∃ n, l.cursor = c.skip (n + 1) ∧ c.answer (c.asked + n) = .exhausted

variable {l l' : Lookahead} {c : Cursor}

theorem reads_ofCursor (c : Cursor) : (ofCursor c).Reads c :=
  ⟨0, rfl⟩

theorem Reads.asked (hreads : l.Reads c) : ∃ n, l.cursor.next.2 = c.skip (n + 1) ∧
    (l.cursor.next.1 = .ok none → c.answer (c.asked + n) = .exhausted) := by
  obtain ⟨n, hn⟩ := hreads
  refine ⟨n, ?_, ?_⟩
  · rw [hn]
    rfl
  · intro hnext
    rw [hn] at hnext
    simp only [Cursor.next, Cursor.skip] at hnext
    split at hnext
    · cases hnext
    · assumption
    · cases hnext

theorem Reads.next (hreads : l.Reads c) : l.next.2.Reads c := by
  unfold Lookahead.next
  split
  · exact hreads
  · obtain ⟨n, hn, -⟩ := hreads.asked
    exact ⟨n + 1, hn⟩

theorem Reads.read (hreads : l.Reads c) (limit : Nat) : (l.read limit).2.Reads c := by
  induction limit generalizing l with
  | zero => exact hreads
  | succ limit ih =>
    have hnext := hreads.next
    rw [Lookahead.read]
    split
    · rename_i heq
      rwa [heq] at hnext
    · rename_i heq
      rwa [heq] at hnext
    · rename_i row l₁ heq
      rw [heq] at hnext
      have hrest := ih hnext
      split
      · rename_i heq₁
        rwa [heq₁] at hrest
      · rename_i heq₁
        rwa [heq₁] at hrest

/-- Where no row is left, the cursor has just said so. -/
theorem Reads.hasMore {more : Bool} (hreads : l.Reads c) (hmore : l.hasMore = (.ok more, l')) :
    l'.Reads c ∧ (more = false → l'.Drains c) := by
  unfold Lookahead.hasMore at hmore
  split at hmore
  · cases hmore
    exact ⟨hreads, nofun⟩
  · obtain ⟨n, hn, hend⟩ := hreads.asked
    split at hmore
    · cases hmore
    · rename_i row cursor heq
      rw [heq] at hn hend
      cases hmore
      refine ⟨⟨n + 1, hn⟩, ?_⟩
      intro hnone
      have hrow : row = none := Option.not_isSome_iff_eq_none.mp (Bool.eq_false_iff.mp hnone)
      exact ⟨hrow, n, hn, hend (congrArg Except.ok hrow)⟩

theorem Reads.readBatch {limit : Nat} {rows : List Row} {more : Bool} (hreads : l.Reads c)
    (hread : l.readBatch limit = (.ok (rows, more), l')) :
    l'.Reads c ∧ (more = false → l'.Drains c) := by
  have hfirst := hreads.read limit
  unfold Lookahead.readBatch at hread
  split at hread
  · cases hread
  · rename_i rows₁ l₁ heq
    rw [heq] at hfirst
    split at hread
    · cases hread
    · rename_i more₁ l₂ hmore
      cases hread
      exact hfirst.hasMore hmore

end Lookahead

/-! ## The latest computation -/

/-- The latest computation has given the cursor. -/
def GaveLatest (workers : List Worker) (c : Cursor) : Prop :=
  ∃ w, w + 1 = workers.length ∧ workers[w]? = some (.finished (.ok c))

/-- The source is the latest computation, or reads the cursor that it gave. -/
def RowSource.IsLatest (workers : List Worker) : RowSource → Prop
  | .computing w => w + 1 = workers.length
  | .opened l => ∃ c, GaveLatest workers c ∧ l.Reads c

/-- The job waits for the latest computation, reads the cursor that it gave, or leaves its source
to the next batch. -/
def Job.IsLatest (workers : List Worker) : Job → Prop
  | .waiting w => w + 1 = workers.length
  | .reading l => ∃ c, GaveLatest workers c ∧ l.Reads c
  | .gathered _ more l => ∃ c, GaveLatest workers c ∧ l.Reads c ∧ (more = false → l.Drains c)
  | .finished (.ready _ (some source)) => source.IsLatest workers
  | .finished _ => True
  | .aborted => True

theorem Job.isLatest_ofSource {workers : List Worker} {source : RowSource}
    (hlatest : source.IsLatest workers) : (Holder.Job.ofSource source).IsLatest workers := by
  cases source <;> exact hlatest

section

variable {workers : List Worker} {w : Nat} {worker next : Worker}
  (hw : workers[w]? = some worker) (hunfinished : worker.isFinished = false)
include hw hunfinished

/-- A computation that goes on has not given a cursor before. -/
theorem GaveLatest.set {c : Cursor} (hgave : GaveLatest workers c) :
    GaveLatest (workers.set w next) c := by
  obtain ⟨w', hlength, hw'⟩ := hgave
  refine ⟨w', by rw [List.length_set, hlength], ?_⟩
  rw [List.getElem?_set_ne ?_, hw']
  rintro rfl
  cases Option.some.inj (hw.symm.trans hw')
  cases hunfinished

theorem RowSource.IsLatest.set {source : RowSource} (hlatest : source.IsLatest workers) :
    source.IsLatest (workers.set w next) := by
  cases source with
  | computing w' =>
    show w' + 1 = (workers.set w next).length
    rw [List.length_set]
    exact hlatest
  | opened l =>
    obtain ⟨c, hgave, hreads⟩ := hlatest
    exact ⟨c, hgave.set hw hunfinished, hreads⟩

theorem Job.IsLatest.set {job : Job} (hlatest : job.IsLatest workers) :
    job.IsLatest (workers.set w next) := by
  cases job with
  | waiting w' =>
    show w' + 1 = (workers.set w next).length
    rw [List.length_set]
    exact hlatest
  | reading l =>
    obtain ⟨c, hgave, hreads⟩ := hlatest
    exact ⟨c, hgave.set hw hunfinished, hreads⟩
  | gathered rows more l =>
    obtain ⟨c, hgave, hreads⟩ := hlatest
    exact ⟨c, hgave.set hw hunfinished, hreads⟩
  | finished result =>
    cases result with
    | ready batch source? =>
      cases source? with
      | none => trivial
      | some source =>
        have hsource : source.IsLatest workers := hlatest
        exact hsource.set hw hunfinished
    | failed cause => trivial
    | crashed => trivial
  | aborted => trivial

end

namespace Holder

/-! ## Succession -/

/-- The order of the computations. -/
structure Succession (h : Holder) : Prop where
  /-- Without a task there are none. -/
  fresh : h.lifecycle = .prepared → h.workers = []
  /-- All but the latest have given their cursors. -/
  earlier : ∀ w, w + 1 < h.workers.length →
    ∃ c, h.workers[w]? = some (.finished (.ok c)) ∧ ∃ n, c.answer (c.asked + n) = .exhausted
  active : ∀ (j : Nat) (job : Job), h.jobs[j]? = some job → job.isActive = true →
    job.IsLatest h.workers
  /-- The batch job of an open task, finished or not. -/
  batchJob : ∀ (e : Execution) (j : Nat) (job : Job), h.lifecycle = .executed e →
    e.batchJob = some j → h.jobs[j]? = some job → job.IsLatest h.workers
  stored : ∀ e source, h.lifecycle = .executed e → e.source = some source →
    source.IsLatest h.workers
  /-- What a call is about to accept. -/
  received : ∀ e batch source, h.lifecycle = .executed e →
    .fetchFinish batch (some source) ∈ h.calls → source.IsLatest h.workers

theorem succession_new (factory : Factory) (idleTimeout now : Nat) :
    (Holder.new factory idleTimeout now).Succession where
  fresh _ := rfl
  earlier _ hlt := absurd hlt (Nat.not_lt_zero _)
  active _ _ hj := nomatch hj
  batchJob _ _ _ he := nomatch he
  stored _ _ he := nomatch he
  received _ _ _ he := nomatch he

section

variable {h h' : Holder} {now : Nat} {a : Action}

/-- A computation that goes on is the latest. -/
theorem Succession.eq_latest (hsucc : h.Succession) {w : Nat} {worker : Worker}
    (hw : h.workers[w]? = some worker) (hunfinished : worker.isFinished = false) :
    w + 1 = h.workers.length := by
  have hlt := (List.getElem?_eq_some_iff.mp hw).1
  rcases Nat.lt_or_ge (w + 1) h.workers.length with hbefore | hlast
  · obtain ⟨c, hfinished, -⟩ := hsucc.earlier w hbefore
    cases Option.some.inj (hw.symm.trans hfinished)
    cases hunfinished
  · omega

/-- The job that somebody answers for is the batch job of an open task. -/
theorem Sound.batchJob_of_claimed (hsound : h.Sound) {e : Execution} {j : Nat}
    (hlife : h.lifecycle = .executed e) (hclaim : h.Claimed j) : e.batchJob = some j := by
  cases hclaim with
  | parked he hjob =>
    cases hlife.symm.trans he
    exact hjob
  | awaited he hjob =>
    cases hlife.symm.trans he
    exact hjob
  | condemned hc =>
    have hclosed := hsound.state_eq_of_releasing hc rfl
    rw [hlife] at hclosed
    cases hclosed

/-- Two jobs that somebody answers for are the same. -/
theorem Sound.claimed_unique (hsound : h.Sound) {i j : Nat} (hi : h.Claimed i)
    (hj : h.Claimed j) : i = j := by
  have hopen {e : Execution} (hlife : h.lifecycle = .executed e) : i = j :=
    Option.some.inj
      ((hsound.batchJob_of_claimed hlife hi).symm.trans (hsound.batchJob_of_claimed hlife hj))
  cases hi with
  | parked he => exact hopen he
  | awaited he => exact hopen he
  | condemned hc hjob =>
    cases hj with
    | parked he => exact hopen he
    | awaited he => exact hopen he
    | condemned hc' hjob' =>
      -- one call releases what the holder had
      obtain ⟨p, hphase⟩ := hsound.phase
      obtain ⟨k, rfl, -⟩ := hphase.exists_releasing hc rfl
      obtain ⟨k', heq, -⟩ := hphase.exists_releasing hc' rfl
      cases heq
      cases Option.some.inj (hc.symm.trans hc')
      exact Option.some.inj (hjob.symm.trans hjob')

/-- A step that leaves jobs and computations alone, and only moves what a holder keeps. -/
theorem Succession.frame (hsucc : h.Succession) (hworkers : h'.workers = h.workers)
    (hjobs : ∀ (j : Nat) (job : Job), h'.jobs[j]? = some job →
      h.jobs[j]? = some job ∨ job = .aborted)
    (hlife : h'.lifecycle = .prepared → h.lifecycle = .prepared)
    (hkept : ∀ e', h'.lifecycle = .executed e' → ∃ e, h.lifecycle = .executed e ∧
      (∀ j, e'.batchJob = some j → e.batchJob = some j) ∧
      ∀ source, e'.source = some source → source.IsLatest h.workers)
    (hcalls : ∀ batch source, .fetchFinish batch (some source) ∈ h'.calls →
      .fetchFinish batch (some source) ∈ h.calls) : h'.Succession := by
  constructor
  · intro hprepared
    rw [hworkers]
    exact hsucc.fresh (hlife hprepared)
  · rw [hworkers]
    exact hsucc.earlier
  · intro j job hj hactive
    rw [hworkers]
    rcases hjobs j job hj with hold | rfl
    · exact hsucc.active j job hold hactive
    · cases hactive
  · intro e' j job he' hbatch hj
    rw [hworkers]
    obtain ⟨e, he, hsame, -⟩ := hkept e' he'
    rcases hjobs j job hj with hold | rfl
    · exact hsucc.batchJob e j job he (hsame j hbatch) hold
    · trivial
  · intro e' source he' hsource
    rw [hworkers]
    obtain ⟨e, he, -, hstored⟩ := hkept e' he'
    exact hstored source hsource
  · intro e' batch source he' hmem
    rw [hworkers]
    obtain ⟨e, he, -⟩ := hkept e' he'
    exact hsucc.received e batch source he (hcalls batch source hmem)

/-- What is left of the jobs after one is aborted. -/
theorem jobs_of_abort (h : Holder) (i j : Nat) {job : Job} (hj : (h.abort i).jobs[j]? = some job) :
    h.jobs[j]? = some job ∨ job = .aborted := by
  unfold abort at hj
  split at hj
  · exact .inl hj
  · change (h.jobs.set i .aborted)[j]? = some job at hj
    rw [List.getElem?_set] at hj
    split at hj
    · split at hj
      · cases hj
        exact .inr rfl
      · cases hj
    · exact .inl hj

theorem jobs_of_abort? (h : Holder) (i? : Option Nat) (j : Nat) {job : Job}
    (hj : (h.abort? i?).jobs[j]? = some job) : h.jobs[j]? = some job ∨ job = .aborted := by
  cases i? with
  | none => exact .inl hj
  | some i => exact h.jobs_of_abort i j hj

/-- A call goes on, and the holder keeps what it has. -/
theorem Succession.goTo {c : Nat} {s : Stage} (hsucc : h.Succession)
    (hworkers : h'.workers = h.workers) (hlife : h'.lifecycle = h.lifecycle)
    (hcalls : h'.calls = h.calls.set c s) (hs : ∀ batch next, s ≠ .fetchFinish batch next)
    (hjobs : ∀ (j : Nat) (job : Job), h'.jobs[j]? = some job →
      h.jobs[j]? = some job ∨ job = .aborted) : h'.Succession := by
  apply hsucc.frame hworkers hjobs
  · rw [hlife]
    exact id
  · intro e he
    rw [hlife] at he
    exact ⟨e, he, fun _ => id, fun source hsource => hsucc.stored e source he hsource⟩
  · intro batch source hmem
    rw [hcalls] at hmem
    rcases List.mem_or_eq_of_mem_set hmem with hmem | heq
    · exact hmem
    · exact absurd heq.symm (hs _ _)

/-- A call goes on, and the holder is closed by it. -/
theorem Succession.close {c : Nat} {s : Stage} (hsucc : h.Succession)
    (hworkers : h'.workers = h.workers) (hlife : h'.lifecycle = .closed)
    (hcalls : h'.calls = h.calls.set c s) (hs : ∀ batch next, s ≠ .fetchFinish batch next)
    (hjobs : h'.jobs = h.jobs) : h'.Succession := by
  apply hsucc.frame hworkers
  · intro j job hj
    exact .inl (hjobs ▸ hj)
  · rw [hlife]
    exact nofun
  · rw [hlife]
    exact nofun
  · intro batch source hmem
    rw [hcalls] at hmem
    rcases List.mem_or_eq_of_mem_set hmem with hmem | heq
    · exact hmem
    · exact absurd heq.symm (hs _ _)

/-! ### Steps of jobs and computations -/

/-- The one job in progress goes on, perhaps with another computation. -/
theorem Succession.set_job (hhonest : h.Honest) {j : Nat} {old job : Job}
    (hj : h.jobs[j]? = some old) (hactive : old.isActive = true) {workers : List Worker}
    (hearlier : ∀ w, w + 1 < workers.length →
      ∃ c, workers[w]? = some (.finished (.ok c)) ∧ ∃ n, c.answer (c.asked + n) = .exhausted)
    (hlatest : job.IsLatest workers) :
    ({ h with workers := workers }.setJob j job).Succession := by
  obtain ⟨hsound, hclaimed, -, -, -⟩ := hhonest
  have hclaim := hclaimed j old hj hactive
  have hbusy : ¬ h.Idle := by
    intro hidle
    rw [hidle j old hj] at hactive
    cases hactive
  constructor
  · intro hprepared
    exact absurd (hsound.idle_of_prepared hclaimed hprepared) hbusy
  · exact hearlier
  · intro i other hi hother
    rw [setJob, getElem?_set_of_some hj] at hi
    split at hi
    · cases hi
      exact hlatest
    · rename_i hne
      exact absurd (hsound.claimed_unique hclaim (hclaimed i other hi hother)) hne
  · intro e i other he hbatch hi
    cases Option.some.inj (hbatch.symm.trans (hsound.batchJob_of_claimed he hclaim))
    rw [setJob, getElem?_set_self_of_some hj] at hi
    cases hi
    exact hlatest
  · intro e source he hsource
    exact absurd (hsound.idle_of_stored hclaimed he hsource) hbusy
  · intro e batch source he hmem
    obtain ⟨c, hc⟩ := List.getElem?_of_mem hmem
    exact absurd (hsound.idle_of_finish hclaimed he hc rfl rfl) hbusy

theorem JobStep.succession (hhonest : h.Honest) (hsucc : h.Succession) {j : Nat} {job : Job}
    (hj : h.jobs[j]? = some job) (hstep : h.JobStep j job h') : h'.Succession := by
  have hactive : job.isActive = true := by
    cases hstep <;> rfl
  have hlatest := hsucc.active j job hj hactive
  cases hstep with
  | computed hworker =>
    exact .set_job hhonest hj hactive hsucc.earlier
      ⟨_, ⟨_, hlatest, hworker⟩, Lookahead.reads_ofCursor _⟩
  | computeFailed hworker => exact .set_job hhonest hj hactive hsucc.earlier trivial
  | read hread =>
    obtain ⟨c, hgave, hreads⟩ := hlatest
    exact .set_job hhonest hj hactive hsucc.earlier ⟨c, hgave, hreads.readBatch hread⟩
  | readFailed hread => exact .set_job hhonest hj hactive hsucc.earlier trivial
  | crash hcrash => exact .set_job hhonest hj hactive hsucc.earlier trivial
  | goOn hcrash =>
    obtain ⟨c, hgave, hreads, -⟩ := hlatest
    exact .set_job hhonest hj hactive hsucc.earlier ⟨c, hgave, hreads⟩
  | chain hcrash hnext =>
    obtain ⟨c, ⟨w, hlength, hw⟩, -, hdrains⟩ := hlatest
    obtain ⟨-, n, -, hend⟩ := hdrains rfl
    refine .set_job hhonest hj hactive ?_ ?_
    · intro w' hlt
      rw [List.length_append, List.length_singleton] at hlt
      rw [List.getElem?_append_left (by omega)]
      rcases Nat.lt_or_ge (w' + 1) h.workers.length with hbefore | hlast
      · exact hsucc.earlier w' hbefore
      · obtain rfl : w = w' := by omega
        exact ⟨c, hw, n, hend⟩
    · show h.workers.length + 1 = (h.workers ++ [Worker.started]).length
      rw [List.length_append, List.length_singleton]
  | drain hcrash hnext => exact .set_job hhonest hj hactive hsucc.earlier trivial

theorem WorkerStep.succession (hsucc : h.Succession) {w : Nat} {worker : Worker}
    (hw : h.workers[w]? = some worker) (hstep : h.WorkerStep w worker h') : h'.Succession := by
  have hunfinished : worker.isFinished = false := by
    cases hstep <;> rfl
  have hlast := hsucc.eq_latest hw hunfinished
  have hframe : ∃ next, h'.workers = h.workers.set w next ∧ h'.lifecycle = h.lifecycle ∧
      h'.jobs = h.jobs ∧ h'.calls = h.calls := by
    cases hstep <;> exact ⟨_, rfl, rfl, rfl, rfl⟩
  obtain ⟨next, hworkers, hlife, hjobs, hcalls⟩ := hframe
  constructor
  · intro hprepared
    rw [hlife] at hprepared
    rw [hsucc.fresh hprepared] at hw
    cases hw
  · intro w' hlt
    rw [hworkers, List.length_set] at hlt
    rw [hworkers, List.getElem?_set_ne (by omega)]
    exact hsucc.earlier w' hlt
  · intro j job hj hactive
    rw [hjobs] at hj
    rw [hworkers]
    exact (hsucc.active j job hj hactive).set hw hunfinished
  · intro e j job he hbatch hj
    rw [hlife] at he
    rw [hjobs] at hj
    rw [hworkers]
    exact (hsucc.batchJob e j job he hbatch hj).set hw hunfinished
  · intro e source he hsource
    rw [hlife] at he
    rw [hworkers]
    exact (hsucc.stored e source he hsource).set hw hunfinished
  · intro e batch source he hmem
    rw [hlife] at he
    rw [hcalls] at hmem
    rw [hworkers]
    exact (hsucc.received e batch source he hmem).set hw hunfinished

/-! ### Steps of a fetch -/

/-- The task is made: its first computation is the only one. -/
theorem Succession.create (hhonest : h.Honest) (hsucc : h.Succession) {c deadline : Nat}
    {e : Execution} (hprepared : h.lifecycle = .prepared) (hlife : h'.lifecycle = .executed e)
    (hsource : e.source = none) (hbatch : e.batchJob = some h.jobs.length)
    (hworkers : h'.workers = h.workers ++ [Worker.started])
    (hjobs : h'.jobs = h.jobs ++ [Job.waiting h.workers.length])
    (hcalls : h'.calls = h.calls.set c (.fetchWait h.jobs.length deadline)) :
    h'.Succession := by
  have hnew : (Job.waiting h.workers.length).IsLatest h'.workers := by
    show h.workers.length + 1 = h'.workers.length
    rw [hworkers, List.length_append, List.length_singleton]
  constructor
  · rw [hlife]
    exact nofun
  · intro w hlt
    rw [hworkers, hsucc.fresh hprepared, List.nil_append, List.length_singleton] at hlt
    omega
  · intro j job hj hactive
    rw [hjobs] at hj
    rcases getElem?_of_append_singleton hj with hj | ⟨-, rfl⟩
    · rw [hhonest.sound.idle_of_prepared hhonest.claimed hprepared j job hj] at hactive
      cases hactive
    · exact hnew
  · intro e' j job he' hj hjob
    cases hlife.symm.trans he'
    cases Option.some.inj (hbatch.symm.trans hj)
    rw [hjobs, List.getElem?_append_right (Nat.le_refl _), Nat.sub_self] at hjob
    cases hjob
    exact hnew
  · intro e' source he' hsome
    cases hlife.symm.trans he'
    cases hsource.symm.trans hsome
  · intro e' batch source he' hmem
    rw [hcalls] at hmem
    rcases List.mem_or_eq_of_mem_set hmem with hmem | heq
    · cases hhonest.fresh hprepared _ hmem
    · cases heq

/-- A job takes the stored source. -/
theorem Succession.start (hsucc : h.Succession) {c deadline : Nat}
    {e : Execution} {source : RowSource} (hexecuted : h.lifecycle = .executed e)
    (hsource : e.source = some source)
    (hlife : h'.lifecycle = .executed { e with source := none, batchJob := some h.jobs.length })
    (hworkers : h'.workers = h.workers) (hjobs : h'.jobs = h.jobs ++ [Job.ofSource source])
    (hcalls : h'.calls = h.calls.set c (.fetchWait h.jobs.length deadline)) :
    h'.Succession := by
  have hnew := Job.isLatest_ofSource (hsucc.stored e source hexecuted hsource)
  constructor
  · rw [hlife]
    exact nofun
  · rw [hworkers]
    exact hsucc.earlier
  · intro j job hj hactive
    rw [hworkers]
    rw [hjobs] at hj
    rcases getElem?_of_append_singleton hj with hj | ⟨-, rfl⟩
    · exact hsucc.active j job hj hactive
    · exact hnew
  · intro e' j job he' hbatch hjob
    cases hlife.symm.trans he'
    cases hbatch
    rw [hworkers]
    rw [hjobs, List.getElem?_append_right (Nat.le_refl _), Nat.sub_self] at hjob
    cases hjob
    exact hnew
  · intro e' source' he' hsome
    cases hlife.symm.trans he'
    cases hsome
  · intro e' batch source' he' hmem
    rw [hworkers]
    rw [hcalls] at hmem
    rcases List.mem_or_eq_of_mem_set hmem with hmem | heq
    · exact hsucc.received e batch source' hexecuted hmem
    · cases heq

/-- A call takes what the batch job gave. -/
theorem Succession.receive (hhonest : h.Honest) (hsucc : h.Succession) {c j deadline : Nat}
    {batch : Batch} {next : Option RowSource}
    (hc : h.calls[c]? = some (.fetchWait j deadline))
    (hjob : h.jobs[j]? = some (.finished (.ready batch next))) :
    (h.goTo c (.fetchFinish batch next)).Succession where
  fresh := hsucc.fresh
  earlier := hsucc.earlier
  active := hsucc.active
  batchJob := hsucc.batchJob
  stored := hsucc.stored
  received := by
    intro e batch' source he hmem
    rcases List.mem_or_eq_of_mem_set hmem with hmem | heq
    · exact hsucc.received e batch' source he hmem
    · cases heq
      obtain ⟨-, -, hwaits⟩ := hhonest.sound.custody_held he hc rfl
      exact hsucc.batchJob e j _ he (hwaits j rfl).1 hjob

/-- The source of the next batch is stored with the holder. -/
theorem Succession.accept (hsucc : h.Succession) {c : Nat} {batch : Batch} {source : RowSource}
    {e : Execution} (hc : h.calls[c]? = some (.fetchFinish batch (some source)))
    (hlife : h.lifecycle = .executed e) :
    ({ h with lifecycle := .executed { e with batchJob := none, source := some source } }.goTo
      c (.fetchTouch (.ok batch))).Succession := by
  have hlatest := hsucc.received e batch source hlife (List.mem_of_getElem? hc)
  apply hsucc.frame
  · rfl
  · exact fun _ _ => .inl
  · exact nofun
  · intro e' he'
    cases he'
    refine ⟨e, hlife, nofun, ?_⟩
    rintro _ ⟨⟩
    exact hlatest
  · intro batch' source' hmem
    rcases List.mem_or_eq_of_mem_set hmem with hmem | heq
    · exact hmem
    · cases heq

/-- The holder moves a job between its places. -/
theorem Succession.keep {c : Nat} {s : Stage} {e e' : Execution} (hsucc : h.Succession)
    (hexecuted : h.lifecycle = .executed e) (hlife : h'.lifecycle = .executed e')
    (hbatch : ∀ j, e'.batchJob = some j → e.batchJob = some j) (hsource : e'.source = e.source)
    (hworkers : h'.workers = h.workers) (hjobs : h'.jobs = h.jobs)
    (hcalls : h'.calls = h.calls.set c s) (hs : ∀ batch next, s ≠ .fetchFinish batch next) :
    h'.Succession := by
  apply hsucc.frame hworkers
  · intro j job hj
    exact .inl (hjobs ▸ hj)
  · rw [hlife]
    exact nofun
  · intro e'' he''
    cases hlife.symm.trans he''
    refine ⟨e, hexecuted, hbatch, ?_⟩
    intro source hsome
    exact hsucc.stored e source hexecuted (hsource.symm.trans hsome)
  · intro batch source hmem
    rw [hcalls] at hmem
    rcases List.mem_or_eq_of_mem_set hmem with hmem | heq
    · exact hmem
    · exact absurd heq.symm (hs _ _)

theorem ne_fetchFinish_stage (after : AfterClose) (batch : Batch) (next : Option RowSource) :
    after.stage ≠ .fetchFinish batch next := by
  cases after <;> exact nofun

theorem Step.succession (hhonest : h.Honest) (hsucc : h.Succession) (hstep : h.Step now a h') :
    h'.Succession := by
  cases hstep with
  | begin operation =>
    apply hsucc.frame
    · rfl
    · exact fun _ _ => .inl
    · exact id
    · exact fun e he => ⟨e, he, fun _ => id, fun source hsource => hsucc.stored e source he hsource⟩
    · intro batch source hmem
      rcases List.mem_append.mp hmem with hmem | hmem
      · exact hmem
      · cases operation <;> cases List.mem_singleton.mp hmem
  -- the next batch is taken from where it is, and goes back to the holder
  | create hc hfree hlife hcreate => exact hsucc.create hhonest hlife rfl rfl rfl rfl rfl rfl
  | start hc hfree hlife hpending hsource =>
    exact hsucc.start hlife hsource rfl rfl rfl rfl
  | resume hc hfree hlife hpending =>
    exact hsucc.keep hlife rfl (fun _ => id) rfl rfl rfl rfl nofun
  | receive hc hjob => exact hsucc.receive hhonest hc hjob
  | accept hc hfree hlife => exact hsucc.accept hc hlife
  | acceptLast hc hfree hlife => exact hsucc.keep hlife rfl nofun rfl rfl rfl rfl nofun
  | park hc hfree hlife => exact hsucc.keep hlife rfl (fun _ => id) rfl rfl rfl rfl nofun
  -- the holder is closed
  | createFails hc => exact hsucc.close rfl rfl rfl nofun rfl
  | closePrepared hc => exact hsucc.close rfl rfl rfl (ne_fetchFinish_stage _) rfl
  | closeExecuted hc => exact hsucc.close rfl rfl rfl nofun rfl
  | reclaimPrepared hc => exact hsucc.close rfl rfl rfl nofun rfl
  | reclaimExecuted hc => exact hsucc.close rfl rfl rfl nofun rfl
  | closeClosed hc => exact hsucc.goTo rfl rfl rfl (ne_fetchFinish_stage _) fun _ _ => .inl
  | closeTask hc => exact hsucc.goTo rfl rfl rfl (ne_fetchFinish_stage _) fun _ _ => .inl
  -- jobs are aborted
  | expire hc => exact hsucc.goTo rfl rfl rfl nofun fun j _ => h.jobs_of_abort _ j
  | parkClosed hc => exact hsucc.goTo rfl rfl rfl nofun fun j _ => h.jobs_of_abort _ j
  | @abortJobs c e cancel after hc =>
    refine hsucc.goTo rfl rfl rfl (by cases cancel <;> exact nofun) ?_
    intro j job hj
    rcases jobs_of_abort? _ _ j hj with hfirst | rfl
    · exact h.jobs_of_abort? _ j hfirst
    · exact .inr rfl
  -- work in progress
  | job hj hjob => exact hjob.succession hhonest hsucc hj
  | worker hw hworker => exact hworker.succession hsucc hw
  | _ => exact hsucc.goTo rfl rfl rfl nofun fun _ _ => .inl

/-- Another computation is started by a batch job that has drained the cursor of the latest, or
it is the first. -/
theorem Step.started (hsucc : h.Succession) (hstep : h.Step now a h')
    (hmore : h'.workers.length ≠ h.workers.length) :
    h'.workers.length = h.workers.length + 1 ∧
      (h.workers = [] ∨
        ∃ (j : Nat) (rows : List Row) (l : Lookahead) (c : Cursor),
          a = .job j ∧ h.jobs[j]? = some (.gathered rows false l) ∧
          GaveLatest h.workers c ∧ l.Drains c) := by
  cases hstep with
  | create hc hfree hlife => exact ⟨List.length_append, .inl (hsucc.fresh hlife)⟩
  | job hj hjob =>
    cases hjob with
    | chain hcrash hnext =>
      obtain ⟨c, hgave, -, hdrains⟩ := hsucc.active _ _ hj rfl
      exact ⟨List.length_append, .inr ⟨_, _, _, c, rfl, hj, hgave, hdrains rfl⟩⟩
    | _ => exact absurd rfl hmore
  | worker hw hworker => exact absurd hworker.length_workers hmore
  | _ => exact absurd rfl hmore

/-- The computations of a task are in order in every run. -/
theorem run_succession {factory : Factory} {idleTimeout start : Nat} {as : List (Nat × Action)}
    (hrun : (Holder.new factory idleTimeout start).run as = some h) :
    h.Honest ∧ h.Succession := by
  refine run_invariant (P := fun h => h.Honest ∧ h.Succession) ?_
    ⟨honest_new _ _ _, succession_new _ _ _⟩ hrun
  rintro h now a h' ⟨hhonest, hsucc⟩ hstep
  exact ⟨hhonest.step hstep, hstep.succession hhonest hsucc⟩

end

end Holder

end PagedQuery.Task
