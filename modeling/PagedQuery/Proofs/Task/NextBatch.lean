import Mathlib.Logic.ExistsUnique
import PagedQuery.Proofs.Task.Succession

/-!
# Where the next batch is

The rows that an open task has not given yet are handed about: from the holder
to a batch job, from the job to the call that waits for it, from a call that is
dropped back to the holder. At each moment they are in one place, whatever
happens, so nothing is read twice at a time, and a fetch finds what it looks
for as long as nobody closes the task.

* `Place`, `Holder.IsAt`: the places of the next batch, and what is the case in each;
* `Holder.next_batch_of_run`: it is in exactly one of them, and what follows from that.
-/

namespace PagedQuery.Task

/-- Where the next batch of an open task is. -/
inductive Place where
  /-- It is yet to be read. -/
  | stored
  /-- A parked job reads it, or has read it. -/
  | parked (job : Nat)
  /-- A call waits for its job or has taken what the job gave. -/
  | inHand (call : Nat)

namespace Holder

/-- A batch job with something left to do. -/
def Runs (h : Holder) (j : Nat) : Prop :=
  ∃ job, h.jobs[j]? = some job ∧ job.isActive = true

/-- A computation with something left to do. -/
def Computes (h : Holder) (w : Nat) : Prop :=
  ∃ worker, h.workers[w]? = some worker ∧ worker.isFinished = false

/-- The next batch of the task is at the place. -/
inductive IsAt (h : Holder) (e : Execution) : Place → Prop where
  /-- The source is there, and nothing else: no batch job, and no call that has to do with one. -/
  | stored {source : RowSource} (hsource : e.source = some source) (hjob : e.batchJob = none)
      (hpending : e.pending = none) (hidle : ∀ i, ¬ h.Runs i)
      (hnone : ∀ s ∈ h.calls, s.holdsBatch = false) : IsAt h e .stored
  /-- The job is there and will give something. No other one runs, and no call waits for it. -/
  | parked {j : Nat} (hsource : e.source = none) (hjob : e.batchJob = some j)
      (hpending : e.pending = some j) (hlive : h.HasJob j) (honly : ∀ i, h.Runs i → i = j)
      (hnone : ∀ s ∈ h.calls, s.holdsBatch = false) : IsAt h e (.parked j)
  /-- The call has the fetch lock. No other call has to do with the batch, and no job runs but
  the one that the call waits for. -/
  | inHand {c : Nat} {s : Stage} (hsource : e.source = none) (hpending : e.pending = none)
      (hlock : h.fetchLock = some c) (hc : h.calls[c]? = some s) (hs : s.holdsBatch = true)
      (hjob : ∀ j, s.job? = some j → e.batchJob = some j ∧ h.HasJob j)
      (honly : ∀ i, h.Runs i → s.job? = some i)
      (hothers : ∀ (c' : Nat) (s' : Stage), h.calls[c']? = some s' → s'.holdsBatch = true →
        c' = c) :
      IsAt h e (.inHand c)

section

variable {h : Holder} {e : Execution} {p p' : Place}

theorem IsAt.unique (hp : h.IsAt e p) (hp' : h.IsAt e p') : p = p' := by
  cases hp with
  | stored hsource =>
    cases hp' with
    | stored => rfl
    | parked hnone => cases hsource.symm.trans hnone
    | inHand hnone => cases hsource.symm.trans hnone
  | parked hsource hjob hpending =>
    cases hp' with
    | stored hsource' => cases hsource.symm.trans hsource'
    | parked hsource' hjob' => cases Option.some.inj (hjob.symm.trans hjob'); rfl
    | inHand hsource' hnone => cases hpending.symm.trans hnone
  | inHand hsource hpending hlock =>
    cases hp' with
    | stored hsource' => cases hsource.symm.trans hsource'
    | parked hsource' hjob' hpending' => cases hpending.symm.trans hpending'
    | inHand hsource' hpending' hlock' => cases Option.some.inj (hlock.symm.trans hlock'); rfl

/-- A job that runs is parked or waited for. -/
theorem Honest.claimed_of_runs (hhonest : h.Honest) {i : Nat} (hruns : h.Runs i) : h.Claimed i := by
  obtain ⟨job, hi, hactive⟩ := hruns
  exact hhonest.claimed i job hi hactive

theorem Honest.exists_isAt (hhonest : h.Honest) (hlife : h.lifecycle = .executed e) :
    ∃ p, h.IsAt e p := by
  have hsound := hhonest.sound
  have hbatch {i : Nat} (hruns : h.Runs i) : e.batchJob = some i :=
    hsound.batchJob_of_claimed hlife (hhonest.claimed_of_runs hruns)
  cases hsound.custody e hlife with
  | stored hsource hjob hpending hnone =>
    refine ⟨.stored, .stored hsource hjob hpending ?_ hnone⟩
    intro i hruns
    cases hjob.symm.trans (hbatch hruns)
  | parked hsource hjob hpending hlive hnone =>
    refine ⟨.parked _, .parked hsource hjob hpending hlive ?_ hnone⟩
    intro i hruns
    exact Option.some.inj ((hbatch hruns).symm.trans hjob)
  | @held c s hsource hpending hc hs hjob =>
    have hlock := (hsound.locked.fetch c).mpr ⟨s, hc, Stage.holdsFetchLock_of_holdsBatch hs⟩
    have hothers (c' : Nat) (s' : Stage) (hc' : h.calls[c']? = some s')
        (hs' : s'.holdsBatch = true) : c' = c :=
      hsound.eq_of_holdsBatch hc' hs' hc hs
    refine ⟨.inHand c, .inHand hsource hpending hlock hc hs hjob ?_ hothers⟩
    intro i hruns
    -- whoever answers for the job is this call
    cases hhonest.claimed_of_runs hruns with
    | parked he hjob' hparked =>
      cases hlife.symm.trans he
      cases hpending.symm.trans hparked
    | awaited he hjob' hc' hs' =>
      obtain rfl := hothers _ _ hc' (Stage.holdsBatch_of_job? hs')
      cases Option.some.inj (hc.symm.trans hc')
      exact hs'
    | condemned hc' =>
      have hclosed := hsound.state_eq_of_releasing hc' rfl
      rw [hlife] at hclosed
      cases hclosed

/-- One batch job runs at a time. -/
theorem Honest.runs_unique (hhonest : h.Honest) {i j : Nat} (hi : h.Runs i) (hj : h.Runs j) :
    i = j :=
  hhonest.sound.claimed_unique (hhonest.claimed_of_runs hi) (hhonest.claimed_of_runs hj)

/-- One computation runs at a time. -/
theorem Succession.computes_unique (hsucc : h.Succession) {v w : Nat} (hv : h.Computes v)
    (hw : h.Computes w) : v = w := by
  obtain ⟨_, hv, hgoing⟩ := hv
  obtain ⟨_, hw, hgoing'⟩ := hw
  have hlast := hsucc.eq_latest hv hgoing
  have hlast' := hsucc.eq_latest hw hgoing'
  omega

/-- The next batch of an open task in every run, whatever is dropped, refused, late or cancelled:
it is in exactly one place. So one batch job and one computation run at a time, and a further
computation is started only by a job that has read the cursor of the one before to its end. A
fetch that begins a batch finds its source, and only a closed task is said to be closed. -/
theorem next_batch_of_run {f : Factory} {idleTimeout start : Nat} {as : List (Nat × Action)}
    (hrun : (Holder.new f idleTimeout start).run as = some h) :
    (∀ e, h.lifecycle = .executed e → ∃! p, h.IsAt e p) ∧
      (∀ i j, h.Runs i → h.Runs j → i = j) ∧
      (∀ v w, h.Computes v → h.Computes w → v = w) ∧
      (∀ (now : Nat) (a : Action) (h' : Holder), h.step now a = some h' →
        h'.workers.length ≠ h.workers.length →
        h'.workers.length = h.workers.length + 1 ∧
          (h.workers = [] ∨
            ∃ (j : Nat) (rows : List Row) (l : Lookahead) (c : Cursor),
              a = .job j ∧ h.jobs[j]? = some (.gathered rows false l) ∧
              GaveLatest h.workers c ∧ l.Drains c)) ∧
      (∀ (c timeout : Nat) (e : Execution), h.calls[c]? = some (.fetchStart timeout) →
        h.lifecycle = .executed e → e.pending = none → e.source ≠ none) ∧
      ∀ c, h.reply? c = some (.fetched (.error .closed)) → h.lifecycle = .closed := by
  obtain ⟨hhonest, hsucc⟩ := run_succession hrun
  refine ⟨?_, fun i j => hhonest.runs_unique, fun v w => hsucc.computes_unique, ?_, ?_, ?_⟩
  · intro e hlife
    obtain ⟨p, hp⟩ := hhonest.exists_isAt hlife
    exact ⟨p, hp, fun p' hp' => hp'.unique hp⟩
  · intro now a h' hstep hmore
    exact (step_of_eq_some hstep).started hsucc hmore
  · intro c timeout e hc hlife hpending
    exact hhonest.sound.source_of_start hc hlife hpending
  · intro c hreply
    have hclosed := hhonest.closed_of_reply hreply rfl
    exact Lifecycle.state_eq_closed_iff.mp hclosed

end

/-- A task of two cursors with a row each. -/
def rowEach : Factory :=
  .ofScript 1
    [{ ScriptedRun.empty with rows := 1, next := true }, { ScriptedRun.empty with rows := 1 }]

/-- The first fetch is dropped after its job has drained the first cursor. The job is parked, and
the second computation is in progress. -/
def droppedLate : List (Nat × Action) :=
  [.begin (.fetch 10), .call 0, .call 0, .worker 0, .worker 0, .worker 0, .worker 0,
    .job 0, .job 0, .job 0, .worker 1, .abandon 0, .call 0, .call 0].map fun a => (0, a)

theorem next_batch_of_run_droppedLate :
    ∃ (h : Holder) (e : Execution),
      (Holder.new rowEach 60 0).run droppedLate = some h ∧
      h.lifecycle = .executed e ∧
      h.workers.length = 2 ∧
      e.pending = some 0 ∧
      ∃! p, h.IsAt e p := by
  have hrun : ∃ h e, (Holder.new rowEach 60 0).run droppedLate = some h ∧
      h.lifecycle = .executed e ∧ h.workers.length = 2 ∧ e.pending = some 0 :=
    ⟨_, _, rfl, rfl, rfl, rfl⟩
  obtain ⟨h, e, hrun, hlife, hworkers, hpending⟩ := hrun
  obtain ⟨hplace, -⟩ := next_batch_of_run hrun
  exact ⟨h, e, hrun, hlife, hworkers, hpending, hplace e hlife⟩

end Holder

end PagedQuery.Task
