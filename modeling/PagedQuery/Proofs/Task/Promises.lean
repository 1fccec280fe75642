import PagedQuery.Proofs.Task.Delivery
import PagedQuery.Proofs.Task.Succession

/-!
# One batch after the other

The batch jobs of a task are numbered, and so are the batches that its fetches
return: batch `i` is what job `i` gave. Each job but the first reads from the
source that the job before it has left. So it is known where a batch goes on
that follows one with more to come: with the row that was read ahead, or, if a
cursor was drained that promised another one, with whatever that one has.

* `RowSource.Opens`, `RowSource.Leaves`: what a job reads from, and what it leaves;
* `Job.From`, `Holder.Numbered`: jobs and batches by their numbers, in every run;
* `Holder.Continues`: how a batch goes on after another;
* `Holder.continues_of_run`: every batch goes on after the one before it.
-/

namespace PagedQuery.Task

/-! ## Rows of a batch -/

namespace Lookahead

variable {l l' : Lookahead} {c : Cursor} {limit : Nat} {rows : List Row} {more : Bool}

/-- A batch takes its rows first, and then looks for another one. -/
theorem exists_read_of_readBatch (hread : l.readBatch limit = (.ok (rows, more), l')) :
    ∃ l₁, l.read limit = (.ok rows, l₁) ∧ l₁.hasMore = (.ok more, l') := by
  unfold readBatch at hread
  split at hread
  · cases hread
  · rename_i l₁ hrows
    split at hread
    · cases hread
    · rename_i more l₂ hmore
      cases hread
      exact ⟨l₁, hrows, hmore⟩

/-- A batch is empty only if there is no first row. -/
theorem eq_nil_iff_of_readBatch (hlimit : 0 < limit)
    (hread : l.readBatch limit = (.ok (rows, more), l')) :
    rows = [] ↔ l.next.1 = .ok none := by
  obtain ⟨limit, rfl⟩ := Nat.exists_eq_succ_of_ne_zero (Nat.ne_of_gt hlimit)
  obtain ⟨l₁, hrows, -⟩ := exists_read_of_readBatch hread
  rw [read] at hrows
  split at hrows
  · cases hrows
  · rename_i hnext
    cases hrows
    rw [hnext]
    exact ⟨fun _ => rfl, fun _ => rfl⟩
  · rename_i hnext
    rw [hnext]
    split at hrows <;> cases hrows
    constructor
    · intro hnil
      cases hnil
    · intro hnone
      cases hnone

theorem ne_nil_of_peeked (hlimit : 0 < limit)
    (hread : l.readBatch limit = (.ok (rows, more), l')) (hpeeked : l.peeked.isSome = true) :
    rows ≠ [] := by
  obtain ⟨row, hrow⟩ := Option.isSome_iff_exists.mp hpeeked
  intro hnil
  have hnone := (eq_nil_iff_of_readBatch hlimit hread).mp hnil
  rw [next, hrow] at hnone
  cases hnone

theorem eq_nil_iff_of_ofCursor (hlimit : 0 < limit)
    (hread : (ofCursor c).readBatch limit = (.ok (rows, more), l')) :
    rows = [] ↔ c.answer c.asked = .exhausted := by
  rw [eq_nil_iff_of_readBatch hlimit hread]
  show c.next.1 = .ok none ↔ _
  unfold Cursor.next
  cases c.answer c.asked with
  | row row => exact ⟨nofun, nofun⟩
  | exhausted => exact ⟨fun _ => rfl, fun _ => rfl⟩
  | fault fault => exact ⟨nofun, nofun⟩

/-- Where rows are left, one has been read ahead. -/
theorem isSome_peeked_of_readBatch (hread : l.readBatch limit = (.ok (rows, true), l')) :
    l'.peeked.isSome = true := by
  obtain ⟨l₁, -, hmore⟩ := exists_read_of_readBatch hread
  unfold hasMore at hmore
  split at hmore
  · rename_i hpeeked
    cases hmore
    rw [hpeeked]
    rfl
  · split at hmore
    · cases hmore
    · injection hmore with hmore hl
      rw [← hl]
      exact Except.ok.inj hmore

end Lookahead

/-! ## Sources and what is read from them -/

/-- What is read if the next batch comes from the source. -/
inductive RowSource.Opens (workers : List Worker) : RowSource → Lookahead → Prop where
  | computed {w : Nat} {c : Cursor} (hw : workers[w]? = some (.finished (.ok c))) :
      Opens workers (.computing w) (.ofCursor c)
  /-- A row has been read ahead. -/
  | opened {l : Lookahead} (hpeeked : l.peeked.isSome = true) : Opens workers (.opened l) l

/-- The source that is left after a batch, which ends at `l`; `more` says whether rows are left. -/
inductive RowSource.Leaves (workers : List Worker) (l : Lookahead) (hasNext : Bool) :
    (more : Bool) → Option RowSource → Prop where
  | more {w : Nat} {c : Cursor} (hw : workers[w]? = some (.finished (.ok c))) (hreads : l.Reads c)
      (hnext : hasNext = true) : Leaves workers l hasNext true (some (.opened l))
  /-- The cursor is drained, and has promised another one. -/
  | promise {w : Nat} {c : Cursor} (hw : workers[w]? = some (.finished (.ok c)))
      (hdrains : l.Drains c) (hpromise : c.hasNextBatch = true) (hnext : hasNext = true) :
      Leaves workers l hasNext false (some (.computing (w + 1)))
  | last : Leaves workers l hasNext false none

/-- The job reads from the source, or has done so. -/
def Job.From (workers : List Worker) (limit : Nat) (source : RowSource) : Job → Prop
  | .waiting w => source = .computing w
  | .reading l => source.Opens workers l
  | .gathered rows more l' =>
    ∃ l, source.Opens workers l ∧ l.readBatch limit = (.ok (rows, more), l')
  | .finished (.ready batch next) =>
    ∃ l l' more, source.Opens workers l ∧ l.readBatch limit = (.ok (batch.rows, more), l') ∧
      RowSource.Leaves workers l' batch.hasNext more next
  | .finished _ => True
  | .aborted => True

/-- The source that the job has left to the next one. -/
def Job.next? : Job → Option RowSource
  | .finished (.ready _ next) => next
  | _ => none

section

variable {workers workers' : List Worker}
  (hkept : ∀ (w : Nat) (c : Cursor), workers[w]? = some (.finished (.ok c)) →
    workers'[w]? = some (.finished (.ok c)))
include hkept

theorem RowSource.Opens.mono {source : RowSource} {l : Lookahead}
    (hopens : source.Opens workers l) : source.Opens workers' l := by
  cases hopens with
  | computed hw => exact .computed (hkept _ _ hw)
  | opened hpeeked => exact .opened hpeeked

theorem RowSource.Leaves.mono {l : Lookahead} {hasNext more : Bool} {next : Option RowSource}
    (hleaves : RowSource.Leaves workers l hasNext more next) :
    RowSource.Leaves workers' l hasNext more next := by
  cases hleaves with
  | more hw hreads hnext => exact .more (hkept _ _ hw) hreads hnext
  | promise hw hdrains hpromise hnext => exact .promise (hkept _ _ hw) hdrains hpromise hnext
  | last => exact .last

theorem Job.From.mono {limit : Nat} {source : RowSource} {job : Job}
    (hfrom : job.From workers limit source) : job.From workers' limit source := by
  cases job with
  | waiting w => exact hfrom
  | reading l =>
    have hopens : source.Opens workers l := hfrom
    exact hopens.mono hkept
  | gathered rows more l' =>
    obtain ⟨l, hopens, hread⟩ := hfrom
    exact ⟨l, hopens.mono hkept, hread⟩
  | finished result =>
    cases result with
    | ready batch next =>
      obtain ⟨l, l', more, hopens, hread, hleaves⟩ := hfrom
      exact ⟨l, l', more, hopens.mono hkept, hread, hleaves.mono hkept⟩
    | failed cause | crashed => trivial
  | aborted => trivial

end

/-- What a job has left, the next one can read. -/
theorem Job.From.opened {workers : List Worker} {limit : Nat} {source : RowSource} {batch : Batch}
    {l : Lookahead} (hfrom : (Job.finished (.ready batch (some (.opened l)))).From workers limit
      source) : RowSource.Opens workers (.opened l) l := by
  obtain ⟨l₀, l', more, -, hread, hleaves⟩ := hfrom
  cases hleaves with
  | more hw hreads hnext => exact .opened (Lookahead.isSome_peeked_of_readBatch hread)

/-! ## Numbers of jobs and batches -/

/-- Whether the call has taken the batch of a job, and has yet to accept it. -/
def Stage.isFinishing : Stage → Bool
  | .fetchFinish .. => true
  | _ => false

theorem AfterClose.isFinishing_stage (after : AfterClose) : after.stage.isFinishing = false := by
  cases after <;> rfl

namespace Holder

/-- The source of the batch with number `n`: the first computation, or what the job before has
left. -/
def source? (h : Holder) : (n : Nat) → Option RowSource
  | 0 => some (.computing 0)
  | n + 1 => h.jobs[n]?.bind Job.next?

/-- Jobs and batches by their numbers. -/
structure Numbered (h : Holder) : Prop where
  fresh : h.lifecycle = .prepared → h.jobs = []
  jobs : ∀ (j : Nat) (job : Job), h.jobs[j]? = some job →
    ∃ source, h.source? j = some source ∧ job.From h.workers h.batchLimit source
  /-- Each batch is what the job of its number gave. -/
  accepted : ∀ (i : Nat) (batch : Batch), h.accepted[i]? = some batch →
    ∃ next, h.jobs[i]? = some (.finished (.ready batch next))
  stored : ∀ e source, h.lifecycle = .executed e → e.source = some source →
    h.jobs.length = h.accepted.length ∧ h.source? h.jobs.length = some source
  batchJob : ∀ e j, h.lifecycle = .executed e → e.batchJob = some j →
    j = h.accepted.length ∧ h.jobs.length = j + 1
  received : ∀ e batch next, h.lifecycle = .executed e → .fetchFinish batch next ∈ h.calls →
    ∃ j, e.batchJob = some j ∧ h.jobs[j]? = some (.finished (.ready batch next))

theorem numbered_new (factory : Factory) (idleTimeout now : Nat) :
    (Holder.new factory idleTimeout now).Numbered where
  fresh _ := rfl
  jobs _ _ hj := nomatch hj
  accepted _ _ hi := nomatch hi
  stored _ _ he := nomatch he
  batchJob _ _ he := nomatch he
  received _ _ _ he := nomatch he

section

variable {h h' : Holder} {now c : Nat} {a : Action} {s : Stage}

/-- A job that is finished keeps its number and its result. -/
theorem source?_mono
    (hkept : ∀ (j : Nat) (result : JobResult), h.jobs[j]? = some (.finished result) →
      h'.jobs[j]? = some (.finished result))
    {n : Nat} {source : RowSource} (hsource : h.source? n = some source) :
    h'.source? n = some source := by
  cases n with
  | zero => exact hsource
  | succ n =>
    obtain ⟨job, hj, hnext⟩ := Option.bind_eq_some_iff.mp hsource
    refine Option.bind_eq_some_iff.mpr ⟨job, ?_, hnext⟩
    cases job with
    | finished result => exact hkept n result hj
    | _ => cases hnext

theorem Numbered.accepted_eq_nil (hnum : h.Numbered) (hjobs : h.jobs = []) : h.accepted = [] := by
  cases haccepted : h.accepted with
  | nil => rfl
  | cons batch batches =>
    obtain ⟨next, hjob⟩ := hnum.accepted 0 batch (by rw [haccepted]; rfl)
    rw [hjobs] at hjob
    cases hjob

/-- Where a job has left an open cursor, a row has been read ahead. -/
theorem Numbered.opens_of_source? (hnum : h.Numbered) {n : Nat} {l : Lookahead}
    (hsource : h.source? n = some (.opened l)) :
    RowSource.Opens h.workers (.opened l) l := by
  cases n with
  | zero => cases hsource
  | succ n =>
    obtain ⟨job, hj, hnext⟩ := Option.bind_eq_some_iff.mp hsource
    obtain ⟨source, -, hfrom⟩ := hnum.jobs n job hj
    cases job with
    | finished result =>
      cases result with
      | ready batch next =>
        cases hnext
        exact hfrom.opened
      | failed cause | crashed => cases hnext
    | _ => cases hnext

/-- A step by which no batch changes its place: computations and jobs go on or are aborted, and
the holder is closed or keeps what it has. -/
theorem Numbered.frame (hnum : h.Numbered) (hfactory : h'.factory = h.factory)
    (hlength : h'.jobs.length = h.jobs.length)
    (hfinished : ∀ (j : Nat) (result : JobResult), h.jobs[j]? = some (.finished result) →
      h'.jobs[j]? = some (.finished result))
    (hjobs : ∀ (j : Nat) (job : Job) (source : RowSource), h'.jobs[j]? = some job →
      h.source? j = some source → job.From h'.workers h.batchLimit source)
    (haccepted : h'.accepted = h.accepted)
    (hlife : h'.lifecycle = .prepared → h.lifecycle = .prepared)
    (hkept : ∀ e', h'.lifecycle = .executed e' → ∃ e, h.lifecycle = .executed e ∧
      e'.source = e.source ∧ e'.batchJob = e.batchJob)
    (hcalls : ∀ batch next, .fetchFinish batch next ∈ h'.calls →
      .fetchFinish batch next ∈ h.calls) : h'.Numbered := by
  have hlimit : h'.batchLimit = h.batchLimit := by rw [batchLimit, batchLimit, hfactory]
  constructor
  · intro hprepared
    rw [List.eq_nil_iff_length_eq_zero, hlength, hnum.fresh (hlife hprepared)]
    rfl
  · intro j job hj
    have hlt : j < h.jobs.length := hlength ▸ (List.getElem?_eq_some_iff.mp hj).1
    obtain ⟨source, hsource, -⟩ := hnum.jobs j _ (List.getElem?_eq_getElem hlt)
    rw [hlimit]
    exact ⟨source, source?_mono hfinished hsource, hjobs j job source hj hsource⟩
  · intro i batch hi
    rw [haccepted] at hi
    obtain ⟨next, hjob⟩ := hnum.accepted i batch hi
    exact ⟨next, hfinished i _ hjob⟩
  · intro e' source he' hsource
    obtain ⟨e, he, hsame, -⟩ := hkept e' he'
    rw [hlength, haccepted]
    obtain ⟨hcount, hleft⟩ := hnum.stored e source he (hsame ▸ hsource)
    exact ⟨hcount, source?_mono hfinished hleft⟩
  · intro e' j he' hj
    obtain ⟨e, he, -, hsame⟩ := hkept e' he'
    rw [hlength, haccepted]
    exact hnum.batchJob e j he (hsame ▸ hj)
  · intro e' batch next he' hmem
    obtain ⟨e, he, -, hsame⟩ := hkept e' he'
    obtain ⟨j, hj, hjob⟩ := hnum.received e batch next he (hcalls batch next hmem)
    exact ⟨j, hsame ▸ hj, hfinished j _ hjob⟩

/-! ### Steps of calls -/

/-- The lifecycle is as it was but for a parked job, or closed. -/
inductive KeepsPlace : Lifecycle → Lifecycle → Prop where
  | same (l : Lifecycle) : KeepsPlace l l
  | pending (e : Execution) (pending : Option Nat) :
      KeepsPlace (.executed e) (.executed { e with pending })
  | closed (l : Lifecycle) : KeepsPlace l .closed

/-- A call goes on that neither takes nor gives a batch. -/
theorem Numbered.call (hnum : h.Numbered) {s' : Stage} (hcalls : h'.calls = h.calls.set c s')
    (hs : s'.isFinishing = false) (haccepted : h'.accepted = h.accepted)
    (hlife : KeepsPlace h.lifecycle h'.lifecycle) (hjobs : KeepsJobs h.jobs h'.jobs)
    (hfactory : h'.factory = h.factory) (hworkers : h'.workers = h.workers) : h'.Numbered := by
  refine hnum.frame hfactory hjobs.1 (fun _ _ => hjobs.finished_iff.mpr) ?_ haccepted ?_ ?_ ?_
  · intro j job source hj' hsource
    have hlt : j < h.jobs.length := hjobs.1 ▸ (List.getElem?_eq_some_iff.mp hj').1
    have hj := List.getElem?_eq_getElem hlt
    obtain ⟨source', hsource', hfrom⟩ := hnum.jobs j _ hj
    cases Option.some.inj (hsource.symm.trans hsource')
    rw [hworkers]
    rcases hjobs.2 j _ hj with hkept | ⟨-, haborted⟩
    · cases Option.some.inj (hj'.symm.trans hkept)
      exact hfrom
    · cases Option.some.inj (hj'.symm.trans haborted)
      trivial
  · intro hprepared
    generalize h.lifecycle = l at hlife
    rw [hprepared] at hlife
    cases hlife
    rfl
  · intro e' he'
    generalize h.lifecycle = l at hlife
    rw [he'] at hlife
    cases hlife with
    | same => exact ⟨e', rfl, rfl, rfl⟩
    | pending e pending => exact ⟨e, rfl, rfl, rfl⟩
  · intro batch next hmem
    rw [hcalls] at hmem
    rcases List.mem_or_eq_of_mem_set hmem with hmem | heq
    · exact hmem
    · rw [← heq] at hs
      cases hs

/-- The task is made, and its first job waits for its first computation. -/
theorem Numbered.create (hhonest : h.Honest) (hsucc : h.Succession) (hnum : h.Numbered)
    {deadline : Nat} {e : Execution} (hprepared : h.lifecycle = .prepared)
    (hlife : h'.lifecycle = .executed e) (hsource : e.source = none)
    (hbatch : e.batchJob = some h.jobs.length)
    (hjobs : h'.jobs = h.jobs ++ [Job.waiting h.workers.length])
    (hcalls : h'.calls = h.calls.set c (.fetchWait h.jobs.length deadline))
    (haccepted : h'.accepted = h.accepted) : h'.Numbered := by
  have hnone := hnum.fresh hprepared
  have hempty := hnum.accepted_eq_nil hnone
  rw [hnone, hsucc.fresh hprepared] at hjobs
  rw [hnone] at hbatch hcalls
  rw [hempty] at haccepted
  constructor
  · rw [hlife]
    exact nofun
  · intro j job hj
    rw [hjobs] at hj
    cases j with
    | zero =>
      cases hj
      exact ⟨.computing 0, rfl, rfl⟩
    | succ j => cases hj
  · intro i batch hi
    rw [haccepted] at hi
    cases hi
  · intro e' source he' hsome
    cases hlife.symm.trans he'
    cases hsource.symm.trans hsome
  · intro e' j he' hj
    cases hlife.symm.trans he'
    cases Option.some.inj (hbatch.symm.trans hj)
    rw [haccepted, hjobs]
    exact ⟨rfl, rfl⟩
  · intro e' batch next he' hmem
    rw [hcalls] at hmem
    rcases List.mem_or_eq_of_mem_set hmem with hmem | heq
    · cases hhonest.fresh hprepared _ hmem
    · cases heq

/-- A job reads from the stored source. -/
theorem Numbered.start (hsound : h.Sound) (hnum : h.Numbered) {deadline : Nat} {e : Execution}
    {source : RowSource} (hexecuted : h.lifecycle = .executed e)
    (hsource : e.source = some source)
    (hlife : h'.lifecycle = .executed { e with source := none, batchJob := some h.jobs.length })
    (hjobs : h'.jobs = h.jobs ++ [Job.ofSource source]) (hworkers : h'.workers = h.workers)
    (hfactory : h'.factory = h.factory)
    (hcalls : h'.calls = h.calls.set c (.fetchWait h.jobs.length deadline))
    (haccepted : h'.accepted = h.accepted) : h'.Numbered := by
  have hlimit : h'.batchLimit = h.batchLimit := by rw [batchLimit, batchLimit, hfactory]
  obtain ⟨hcount, hleft⟩ := hnum.stored e source hexecuted hsource
  have hold {j : Nat} {job : Job} (hj : h.jobs[j]? = some job) : h'.jobs[j]? = some job := by
    rw [hjobs, List.getElem?_append_left (List.getElem?_eq_some_iff.mp hj).1, hj]
  have hmono {n : Nat} {source : RowSource} (h₁ : h.source? n = some source) :
      h'.source? n = some source := source?_mono (fun _ _ => hold) h₁
  constructor
  · rw [hlife]
    exact nofun
  · intro j job hj
    rw [hworkers, hlimit]
    rw [hjobs] at hj
    rcases getElem?_of_append_singleton hj with hj | ⟨rfl, rfl⟩
    · obtain ⟨source', hsource', hfrom⟩ := hnum.jobs j job hj
      exact ⟨source', hmono hsource', hfrom⟩
    · refine ⟨source, hmono hleft, ?_⟩
      cases source with
      | computing w => rfl
      | opened l => exact hnum.opens_of_source? hleft
  · intro i batch hi
    rw [haccepted] at hi
    obtain ⟨next, hjob⟩ := hnum.accepted i batch hi
    exact ⟨next, hold hjob⟩
  · intro e' source' he' hsome
    cases hlife.symm.trans he'
    cases hsome
  · intro e' j he' hj
    cases hlife.symm.trans he'
    cases hj
    rw [haccepted, hjobs, List.length_append]
    exact ⟨hcount, rfl⟩
  · intro e' batch next he' hmem
    rw [hcalls] at hmem
    rcases List.mem_or_eq_of_mem_set hmem with hmem | heq
    · -- nobody has a batch while the source is stored
      obtain ⟨c', hc'⟩ := List.getElem?_of_mem hmem
      cases hsource.symm.trans (hsound.custody_held hexecuted hc' rfl).1
    · cases heq

/-- A call takes what the batch job gave. -/
theorem Numbered.receive (hsound : h.Sound) (hnum : h.Numbered) {j deadline : Nat} {batch : Batch}
    {next : Option RowSource} (hc : h.calls[c]? = some (.fetchWait j deadline))
    (hjob : h.jobs[j]? = some (.finished (.ready batch next))) :
    (h.goTo c (.fetchFinish batch next)).Numbered := by
  have haccepted : (h.goTo c (.fetchFinish batch next)).accepted = h.accepted :=
    accepted_eq hc rfl rfl rfl
  refine ⟨hnum.fresh, hnum.jobs, ?_, ?_, ?_, ?_⟩
  · rw [haccepted]
    exact hnum.accepted
  · rw [haccepted]
    exact hnum.stored
  · rw [haccepted]
    exact hnum.batchJob
  · intro e batch' next' he hmem
    rcases List.mem_or_eq_of_mem_set hmem with hmem | heq
    · exact hnum.received e batch' next' he hmem
    · cases heq
      obtain ⟨-, -, hwaits⟩ := hsound.custody_held he hc rfl
      exact ⟨j, (hwaits j rfl).1, hjob⟩

/-- A call accepts the batch that it has taken: it is the next one. -/
theorem Numbered.accept (hsound : h.Sound) (hnum : h.Numbered) {batch : Batch}
    {next : Option RowSource} {s' : Stage} {e : Execution}
    (hc : h.calls[c]? = some (.fetchFinish batch next)) (hexecuted : h.lifecycle = .executed e)
    (hlife : h'.lifecycle = .executed { e with batchJob := none, source := next })
    (hcalls : h'.calls = h.calls.set c s') (hs : s'.isFinishing = false)
    (haccepted : h'.accepted = h.accepted ++ [batch]) (hjobs : h'.jobs = h.jobs)
    (hworkers : h'.workers = h.workers) (hfactory : h'.factory = h.factory) : h'.Numbered := by
  have hlimit : h'.batchLimit = h.batchLimit := by rw [batchLimit, batchLimit, hfactory]
  have hsame (n : Nat) : h'.source? n = h.source? n := by
    cases n with
    | zero => rfl
    | succ n => rw [source?, source?, hjobs]
  obtain ⟨j, hj, hjob⟩ := hnum.received e batch next hexecuted (List.mem_of_getElem? hc)
  obtain ⟨rfl, hlength⟩ := hnum.batchJob e j hexecuted hj
  constructor
  · rw [hlife]
    exact nofun
  · intro j job hj
    rw [hjobs] at hj
    rw [hsame, hworkers, hlimit]
    exact hnum.jobs j job hj
  · intro i batch' hi
    rw [hjobs]
    rw [haccepted] at hi
    rcases getElem?_of_append_singleton hi with hi | ⟨rfl, rfl⟩
    · exact hnum.accepted i batch' hi
    · exact ⟨next, hjob⟩
  · intro e' source he' hsome
    cases hlife.symm.trans he'
    rw [hjobs, haccepted, List.length_append, hsame, hlength, source?, hjob]
    exact ⟨rfl, hsome⟩
  · intro e' j he' hbatch
    cases hlife.symm.trans he'
    cases hbatch
  · intro e' batch' next' he' hmem
    rw [hcalls] at hmem
    obtain ⟨c', hc'⟩ := List.getElem?_of_mem hmem
    rw [getElem?_set_of_some hc] at hc'
    split at hc'
    · rw [Option.some.inj hc'] at hs
      cases hs
    · rename_i hne
      exact absurd (hsound.eq_of_holdsBatch hc rfl hc' rfl) hne

/-! ### Steps of jobs and computations -/

/-- The job goes on, perhaps with another computation. -/
theorem Numbered.set_job (hnum : h.Numbered) {j : Nat} {old job : Job}
    (hj : h.jobs[j]? = some old) (hunfinished : old.isFinished = false) {workers : List Worker}
    (hkept : ∀ (w : Nat) (c : Cursor), h.workers[w]? = some (.finished (.ok c)) →
      workers[w]? = some (.finished (.ok c)))
    (hfrom : ∀ source, old.From h.workers h.batchLimit source →
      job.From workers h.batchLimit source) :
    ({ h with workers := workers }.setJob j job).Numbered := by
  refine hnum.frame rfl List.length_set ?_ ?_ rfl id (fun e he => ⟨e, he, rfl, rfl⟩)
    fun _ _ => id
  · intro i result hi
    rw [setJob, List.getElem?_set_ne ?_, hi]
    rintro rfl
    cases Option.some.inj (hi.symm.trans hj)
    cases hunfinished
  · intro i other source hi hsource
    rw [setJob, getElem?_set_of_some hj] at hi
    split at hi
    · rename_i heq
      subst heq
      cases hi
      obtain ⟨source', hsource', hold⟩ := hnum.jobs j old hj
      cases Option.some.inj (hsource.symm.trans hsource')
      exact hfrom source hold
    · obtain ⟨source', hsource', hold⟩ := hnum.jobs i other hi
      cases Option.some.inj (hsource.symm.trans hsource')
      exact hold.mono hkept

theorem JobStep.numbered (hsucc : h.Succession) (hnum : h.Numbered) {j : Nat} {job : Job}
    (hj : h.jobs[j]? = some job) (hstep : h.JobStep j job h') : h'.Numbered := by
  cases hstep with
  | computed hworker =>
    refine hnum.set_job hj rfl (fun _ _ => id) ?_
    rintro source rfl
    exact .computed hworker
  | read hread =>
    refine hnum.set_job hj rfl (fun _ _ => id) ?_
    intro source hopens
    exact ⟨_, hopens, hread⟩
  | computeFailed hworker => exact hnum.set_job hj rfl (fun _ _ => id) fun _ _ => trivial
  | readFailed hread => exact hnum.set_job hj rfl (fun _ _ => id) fun _ _ => trivial
  | crash hcrash => exact hnum.set_job hj rfl (fun _ _ => id) fun _ _ => trivial
  | goOn hcrash =>
    obtain ⟨c, ⟨w, -, hw⟩, hreads, -⟩ := hsucc.active j _ hj rfl
    refine hnum.set_job hj rfl (fun _ _ => id) ?_
    rintro source ⟨l, hopens, hread⟩
    exact ⟨l, _, true, hopens, hread, .more hw hreads rfl⟩
  | chain hcrash hnext =>
    obtain ⟨c, ⟨w, hlast, hw⟩, -, hdrains⟩ := hsucc.active j _ hj rfl
    have hdrains := hdrains rfl
    have hpromise : c.hasNextBatch = true := by
      obtain ⟨-, n, hcursor, -⟩ := hdrains
      rwa [hcursor] at hnext
    have hkept (w : Nat) (c : Cursor) (hw : h.workers[w]? = some (.finished (.ok c))) :
        (h.workers ++ [Worker.started])[w]? = some (.finished (.ok c)) := by
      rw [List.getElem?_append_left (List.getElem?_eq_some_iff.mp hw).1, hw]
    refine hnum.set_job hj rfl hkept ?_
    rintro source ⟨l, hopens, hread⟩
    refine ⟨l, _, false, hopens.mono hkept, hread, ?_⟩
    rw [← hlast]
    exact .promise (hkept w c hw) hdrains hpromise rfl
  | drain hcrash hnext =>
    refine hnum.set_job hj rfl (fun _ _ => id) ?_
    rintro source ⟨l, hopens, hread⟩
    exact ⟨l, _, false, hopens, hread, .last⟩

theorem WorkerStep.numbered (hnum : h.Numbered) {w : Nat} {worker : Worker}
    (hw : h.workers[w]? = some worker) (hstep : h.WorkerStep w worker h') : h'.Numbered := by
  have hunfinished : worker.isFinished = false := by
    cases hstep <;> rfl
  have hframe : ∃ next, h'.workers = h.workers.set w next ∧ h'.lifecycle = h.lifecycle ∧
      h'.jobs = h.jobs ∧ h'.calls = h.calls ∧ h'.factory = h.factory := by
    cases hstep <;> exact ⟨_, rfl, rfl, rfl, rfl, rfl⟩
  obtain ⟨next, hworkers, hlife, hjobs, hcalls, hfactory⟩ := hframe
  have hkept (w' : Nat) (c : Cursor) (hw' : h.workers[w']? = some (.finished (.ok c))) :
      h'.workers[w']? = some (.finished (.ok c)) := by
    rw [hworkers, List.getElem?_set_ne ?_, hw']
    rintro rfl
    cases Option.some.inj (hw.symm.trans hw')
    cases hunfinished
  refine hnum.frame hfactory (congrArg _ hjobs) ?_ ?_ hstep.accepted_eq ?_ ?_ ?_
  · intro j result hj
    rwa [hjobs]
  · intro j job source hj hsource
    rw [hjobs] at hj
    obtain ⟨source', hsource', hfrom⟩ := hnum.jobs j job hj
    cases Option.some.inj (hsource.symm.trans hsource')
    exact hfrom.mono hkept
  · rw [hlife]
    exact id
  · rw [hlife]
    exact fun e he => ⟨e, he, rfl, rfl⟩
  · rw [hcalls]
    exact fun _ _ => id

/-! ### All steps -/

theorem Step.numbered (hhonest : h.Honest) (hsucc : h.Succession) (hnum : h.Numbered)
    (hstep : h.Step now a h') : h'.Numbered := by
  have hsound := hhonest.sound
  have hkeeps := keepsJobs_refl h.jobs
  cases hstep with
  | begin operation =>
    refine hnum.frame rfl rfl (fun _ _ => id) ?_ ?_ id (fun e he => ⟨e, he, rfl, rfl⟩) ?_
    · intro j job source hj hsource
      obtain ⟨source', hsource', hfrom⟩ := hnum.jobs j job hj
      cases Option.some.inj (hsource.symm.trans hsource')
      exact hfrom
    · rw [accepted, List.filterMap_append]
      cases operation <;> exact congrArg _ (List.append_nil _)
    · intro batch next hmem
      rcases List.mem_append.mp hmem with hmem | hmem
      · exact hmem
      · cases operation <;> cases List.mem_singleton.mp hmem
  -- a batch is begun, taken and accepted
  | create hc hfree hlife hcreate =>
    exact hnum.create hhonest hsucc hlife rfl rfl rfl rfl rfl
      (accepted_eq_of_log hc rfl rfl rfl rfl)
  | start hc hfree hlife hpending hsource =>
    exact hnum.start hsound hlife hsource rfl rfl rfl rfl rfl (accepted_eq hc rfl rfl rfl)
  | receive hc hjob => exact hnum.receive hsound hc hjob
  | accept hc hfree hlife =>
    exact hnum.accept hsound hc hlife rfl rfl rfl
      (accepted_accept hsound.locked hc rfl rfl rfl rfl rfl) rfl rfl rfl
  | acceptLast hc hfree hlife =>
    obtain ⟨hsource, -, -⟩ := hsound.custody_held hlife hc rfl
    refine hnum.accept hsound hc hlife ?_ rfl rfl
      (accepted_accept hsound.locked hc rfl rfl rfl rfl rfl) rfl rfl rfl
    show Lifecycle.executed _ = _
    rw [← hsource]
  | resume hc hfree hlife hpending =>
    refine hnum.call rfl rfl (accepted_eq hc rfl rfl rfl) ?_ hkeeps rfl rfl
    rw [hlife]
    exact .pending _ _
  | park hc hfree hlife =>
    refine hnum.call rfl rfl (accepted_eq hc rfl rfl rfl) ?_ hkeeps rfl rfl
    rw [hlife]
    exact .pending _ _
  | unlock hc =>
    exact hnum.call rfl rfl (accepted_unlock hsound.locked hc) (.same _) hkeeps rfl rfl
  -- jobs are aborted
  | expire hc hnow =>
    exact hnum.call rfl rfl (accepted_eq hc rfl rfl rfl) (.same _) (h.keepsJobs_abort _) rfl rfl
  | parkClosed hc hfree hlife =>
    exact hnum.call rfl rfl (accepted_eq hc rfl rfl rfl) (.same _) (h.keepsJobs_abort _) rfl rfl
  | @abortJobs c e cancel after hc =>
    exact hnum.call rfl (by cases cancel <;> rfl)
      (accepted_eq hc rfl (by cases cancel <;> rfl) rfl) (.same _)
      (h.keepsJobs_abort?_abort? _ _) rfl rfl
  -- the holder is closed
  | createFails hc =>
    exact hnum.call rfl rfl (accepted_eq_of_log hc rfl rfl rfl rfl) (.closed _) hkeeps rfl rfl
  | closeExecuted hc | reclaimPrepared hc | reclaimExecuted hc =>
    exact hnum.call rfl rfl (accepted_eq hc rfl rfl rfl) (.closed _) hkeeps rfl rfl
  | @closePrepared c cancel after hc =>
    exact hnum.call rfl after.isFinishing_stage
      (accepted_eq_of_log hc rfl after.batch?_stage rfl (after.filterMap_events c)) (.closed _)
      hkeeps rfl rfl
  | @closeClosed c cancel after hc =>
    exact hnum.call rfl after.isFinishing_stage
      (accepted_eq_of_log hc rfl after.batch?_stage rfl (after.filterMap_events c)) (.same _)
      hkeeps rfl rfl
  | cancelTask hc =>
    exact hnum.call rfl rfl (accepted_eq_of_log hc rfl rfl rfl (Event.filterMap_cancelled _))
      (.same _) hkeeps rfl rfl
  | @closeTask c after hc =>
    exact hnum.call rfl after.isFinishing_stage
      (accepted_eq_of_log hc rfl after.batch?_stage rfl (Event.filterMap_closed _ c after))
      (.same _) hkeeps rfl rfl
  -- work in progress
  | job hj hjob => exact hjob.numbered hsucc hnum hj
  | worker hw hworker => exact hworker.numbered hnum hw
  -- calls that reply without a batch
  | refuse hc | leave hc | abandonBegin hc | checkBusy hc | busy hc | checkClosed hc
  | checkFetching hc | keep hc | checkUnlock hc | statusState hc =>
    exact hnum.call rfl rfl (accepted_eq_of_log hc rfl rfl rfl rfl) (.same _) hkeeps rfl rfl
  | _ =>
    -- no other call has to do with batches
    have hc := ‹h.calls[_]? = some _›
    exact hnum.call rfl rfl (accepted_eq hc rfl rfl rfl) (.same _) hkeeps rfl rfl

/-- Jobs and batches have their numbers in every run. -/
theorem run_numbered {factory : Factory} {idleTimeout start : Nat} {as : List (Nat × Action)}
    (hrun : (Holder.new factory idleTimeout start).run as = some h) : h.Numbered := by
  have hall : h.Honest ∧ h.Succession ∧ h.Numbered := by
    refine run_invariant (P := fun h => h.Honest ∧ h.Succession ∧ h.Numbered) ?_
      ⟨honest_new _ _ _, succession_new _ _ _, numbered_new _ _ _⟩ hrun
    rintro h now a h' ⟨hhonest, hsucc, hnum⟩ hstep
    exact ⟨hhonest.step hstep, hstep.succession hhonest hsucc,
      hstep.numbered hhonest hsucc hnum⟩
  exact hall.2.2

/-! ## How batches go on -/

/-- The batch `b'` goes on after `b`. -/
inductive Continues (h : Holder) (b b' : Batch) : Prop where
  /-- The cursor of `b` has more rows, and `b'` has some. -/
  | rows {w : Nat} {c : Cursor} {l l' : Lookahead}
      (hw : h.workers[w]? = some (.finished (.ok c)))
      (hread : l.readBatch h.batchLimit = (.ok (b.rows, true), l')) (hreads : l'.Reads c)
      (hrows : b'.rows ≠ []) : Continues h b b'
  /-- The cursor of `b` is drained, and has promised another one. If that one has no rows, `b'`
  has none. -/
  | promise {w : Nat} {c c' : Cursor} {l l' : Lookahead}
      (hw : h.workers[w]? = some (.finished (.ok c)))
      (hread : l.readBatch h.batchLimit = (.ok (b.rows, false), l')) (hdrains : l'.Drains c)
      (hpromise : c.hasNextBatch = true) (hw' : h.workers[w + 1]? = some (.finished (.ok c')))
      (hrows : b'.rows = [] ↔ c'.answer c'.asked = .exhausted) : Continues h b b'

theorem batchLimit_pos (h : Holder) : 0 < h.batchLimit :=
  Nat.lt_of_lt_of_le Nat.zero_lt_one (Nat.le_max_right _ _)

/-- The job of a batch reads from what the job of the batch before has left. -/
theorem Numbered.continues (hnum : h.Numbered) {i : Nat} {b b' : Batch}
    (hb : h.accepted[i]? = some b) (hb' : h.accepted[i + 1]? = some b') :
    b.hasNext = true ∧ h.Continues b b' := by
  obtain ⟨next, hjob⟩ := hnum.accepted i b hb
  obtain ⟨next', hjob'⟩ := hnum.accepted (i + 1) b' hb'
  obtain ⟨source, -, l₀, l, more, -, hread, hleaves⟩ := hnum.jobs i _ hjob
  obtain ⟨source', hsource', l₁, l', more', hopens, hread', -⟩ := hnum.jobs (i + 1) _ hjob'
  rw [source?, hjob] at hsource'
  obtain rfl : next = some source' := hsource'
  cases hleaves with
  | more hw hreads hnext =>
    cases hopens with
    | opened hpeeked =>
      exact ⟨hnext, .rows hw hread hreads
        (Lookahead.ne_nil_of_peeked h.batchLimit_pos hread' hpeeked)⟩
  | promise hw hdrains hpromise hnext =>
    cases hopens with
    | computed hw' =>
      exact ⟨hnext, .promise hw hread hdrains hpromise hw'
        (Lookahead.eq_nil_iff_of_ofCursor h.batchLimit_pos hread')⟩

theorem Continues.ne_nil {b b' : Batch} (hcontinues : h.Continues b b')
    (hkeeps : ∀ (w : Nat) (c : Cursor), h.workers[w + 1]? = some (.finished (.ok c)) →
      c.answer c.asked ≠ .exhausted) : b'.rows ≠ [] := by
  cases hcontinues with
  | rows hw hread hreads hrows => exact hrows
  | promise hw hread hdrains hpromise hw' hrows =>
    exact fun hnil => hkeeps _ _ hw' (hrows.mp hnil)

end

/-- Two batches that were returned one after the other, in every run, whatever fails or is dropped
in between. The first said that there is more. The second has rows, unless the first drained a
cursor that promised another one, and that one has no rows. So where every further cursor has a
row, the second batch has one. -/
theorem continues_of_run {factory : Factory} {idleTimeout start : Nat}
    {as : List (Nat × Action)} {h : Holder}
    (hrun : (Holder.new factory idleTimeout start).run as = some h)
    {l : List Batch} {b b' : Batch} {r : List Batch} (hreturned : h.returned = l ++ b :: b' :: r) :
    b.hasNext = true ∧ h.Continues b b' ∧
      ((∀ (w : Nat) (c : Cursor), h.workers[w + 1]? = some (.finished (.ok c)) →
        c.answer c.asked ≠ .exhausted) → b'.rows ≠ []) := by
  have haccepted : h.accepted = l ++ b :: b' :: (r ++ h.calls.filterMap Stage.batch?) := by
    rw [accepted, hreturned, List.append_assoc, List.cons_append, List.cons_append]
  have hb : h.accepted[l.length]? = some b := by simp [haccepted]
  have hb' : h.accepted[l.length + 1]? = some b' := by simp [haccepted]
  obtain ⟨hnext, hcontinues⟩ := (run_numbered hrun).continues hb hb'
  exact ⟨hnext, hcontinues, hcontinues.ne_nil⟩

/-- The batches of a task of two cursors, across the row read ahead and across the cursors. -/
theorem continues_of_run_twoCursors :
    ∃ h first second last,
      (Holder.new twoCursors 60 0).run droppedFetch = some h ∧
      h.returned = [first, second, last] ∧
      h.Continues first second ∧ h.Continues second last ∧ last.rows ≠ [] := by
  obtain ⟨h, first, second, last, hrun, hreturned, hrows⟩ : ∃ h first second last,
      (Holder.new twoCursors 60 0).run droppedFetch = some h ∧
      h.returned = [first, second, last] ∧ last.rows.length = 1 :=
    ⟨_, _, _, _, rfl, rfl, rfl⟩
  obtain ⟨-, hfirst, -⟩ := continues_of_run hrun (l := []) hreturned
  obtain ⟨-, hsecond, -⟩ := continues_of_run hrun (l := [first]) hreturned
  refine ⟨h, first, second, last, hrun, hreturned, hfirst, hsecond, ?_⟩
  intro hnil
  rw [hnil] at hrows
  cases hrows

/-- A second fetch after the first. -/
def secondFetch : List (Nat × Action) :=
  [.begin (.fetch 10), .call 1, .call 1, .worker 1, .worker 1, .worker 1, .worker 1,
    .job 1, .job 1, .job 1, .call 1, .call 1, .call 1, .call 1, .call 1, .call 1,
    .call 1].map fun a => (0, a)

/-- After a batch that says that there is more, the next one may have no row. -/
theorem not_rows_of_hasNext :
    ¬ ∀ (factory : Factory) (idleTimeout start : Nat) (as : List (Nat × Action)) (h : Holder),
        (Holder.new factory idleTimeout start).run as = some h →
        ∀ l b b' r, h.returned = l ++ b :: b' :: r → b.hasNext = true → b'.rows ≠ [] := by
  intro hall
  obtain ⟨h, b, b', hrun, hreturned, hnext, hrows⟩ : ∃ h b b',
      (Holder.new emptyTail 60 0).run (firstFetch ++ secondFetch) = some h ∧
      h.returned = [b, b'] ∧ b.hasNext = true ∧ b'.rows = [] :=
    ⟨_, _, _, rfl, rfl, rfl, rfl⟩
  exact hall emptyTail 60 0 (firstFetch ++ secondFetch) h hrun [] b b' [] hreturned hnext hrows

end Holder

end PagedQuery.Task
