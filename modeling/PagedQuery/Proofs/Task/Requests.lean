import PagedQuery.Proofs.Task.Failures
import PagedQuery.Proofs.Task.Promises

/-!
# Row requests

A lookahead keeps one row or none, and in the second case it does not remember
whether the cursor has already said that there is none. Batch jobs read a cursor
batch by batch, and how often they ask it for a row depends on how the batches
fall on its end: a batch that is full when the rows end asks once past them, and
one that is not asks twice.

* `Lookahead.readBatches`: batches that are read one after the other;
* `Holder.readBatches_of_run`: these are what the jobs of a holder read;
* `Lookahead.Served`, `Lookahead.Broken`: the requests so far, and what became of their answers;
* `Cursor.EndsAt`, `Lookahead.Before`: the end of a cursor, and lookaheads before it;
* `Lookahead.requests_of_readBatches`: how often a cursor is asked, and when past its end.
-/

namespace PagedQuery.Task

/-! ## Batches one after the other -/

/-- What reading a batch gives: its rows and whether more are left, or a fault. -/
abbrev BatchAnswer := Except Fault (List Row × Bool)

namespace BatchAnswer

/-- The rows that are delivered. -/
def rows : BatchAnswer → List Row
  | .ok (rows, _) => rows
  | .error _ => []

/-- The batch says that no row is left. -/
def isLast : BatchAnswer → Bool
  | .ok (_, more) => !more
  | .error _ => false

/-- The batch has fewer rows than it may have. -/
def isShort (limit : Nat) : BatchAnswer → Bool
  | .ok (rows, _) => decide (rows.length < limit)
  | .error _ => false

end BatchAnswer

namespace Lookahead

/-- Reads up to `count` batches. The first one that fails or leaves no row ends it. -/
def readBatches (l : Lookahead) (limit : Nat) : (count : Nat) → List BatchAnswer × Lookahead
  | 0 => ([], l)
  | count + 1 =>
    match l.readBatch limit with
    | (.ok (rows, true), l) =>
      let (answers, l) := l.readBatches limit count
      (.ok (rows, true) :: answers, l)
    | (answer, l) => ([answer], l)

variable {l l' l₁ l₂ : Lookahead} {c : Cursor} {limit count : Nat} {rows : List Row}

theorem readBatches_of_more (hread : l.readBatch limit = (.ok (rows, true), l')) (count : Nat) :
    l.readBatches limit (count + 1) =
      (.ok (rows, true) :: (l'.readBatches limit count).1, (l'.readBatches limit count).2) := by
  rw [readBatches, hread]

theorem readBatches_of_not_more {answer : BatchAnswer} (hread : l.readBatch limit = (answer, l'))
    (hmore : ∀ rows, answer ≠ .ok (rows, true)) (count : Nat) :
    l.readBatches limit (count + 1) = ([answer], l') := by
  rw [readBatches, hread]
  split
  · rename_i heq
    cases heq
    exact absurd rfl (hmore _)
  · rename_i heq
    cases heq
    rfl

/-- If all batches say that there is more, another one can be read. -/
theorem readBatches_append {answers : List BatchAnswer} {answer : BatchAnswer}
    (hreads : l.readBatches limit count = (answers, l₁))
    (hmore : ∀ answer ∈ answers, ∃ rows, answer = .ok (rows, true))
    (hread : l₁.readBatch limit = (answer, l₂)) :
    l.readBatches limit (count + 1) = (answers ++ [answer], l₂) := by
  induction count generalizing l answers with
  | zero =>
    cases hreads
    rw [readBatches, hread]
    split <;> rename_i heq <;> cases heq <;> rfl
  | succ count ih =>
    rcases hfirst : l.readBatch limit with ⟨first, l'⟩
    by_cases hfirstMore : ∃ rows, first = .ok (rows, true)
    · obtain ⟨rows, rfl⟩ := hfirstMore
      rw [readBatches_of_more hfirst] at hreads ⊢
      cases hreads
      rw [ih rfl fun answer hanswer => hmore answer (List.mem_cons_of_mem _ hanswer)]
      rfl
    · rw [readBatches_of_not_more hfirst fun rows hrows => hfirstMore ⟨rows, hrows⟩] at hreads
      cases hreads
      exact absurd (hmore first List.mem_cons_self) hfirstMore

/-- Reading more batches takes back no request. -/
theorem asked_le_readBatches (l : Lookahead) (limit count : Nat) :
    l.cursor.asked ≤ (l.readBatches limit count).2.cursor.asked := by
  induction count generalizing l with
  | zero => exact Nat.le_refl _
  | succ count ih =>
    have hfirst := (l.asks_readBatch limit).asked_le
    rw [readBatches]
    split
    · rename_i heq
      rw [heq] at hfirst
      exact Nat.le_trans hfirst (ih _)
    · rename_i heq
      rwa [heq] at hfirst

theorem asked_readBatch_le (l : Lookahead) (limit count : Nat) :
    (l.readBatch limit).2.cursor.asked ≤ (l.readBatches limit (count + 1)).2.cursor.asked := by
  rw [readBatches]
  split
  · rename_i heq
    rw [heq]
    exact asked_le_readBatches _ limit count
  · rename_i heq
    exact Nat.le_of_eq (by rw [heq])

end Lookahead

/-! ### Batches of a holder -/

namespace Holder

/-- What is read from a source is what earlier batches have left of the cursor of a computation,
all of which said that there is more. -/
theorem Numbered.exists_readBatches {h : Holder} (hnum : h.Numbered) {n : Nat} {source : RowSource}
    {l : Lookahead} (hsource : h.source? n = some source) (hopens : source.Opens h.workers l) :
    ∃ (w : Nat) (c : Cursor) (count : Nat) (answers : List BatchAnswer),
      h.workers[w]? = some (.finished (.ok c)) ∧
      (Lookahead.ofCursor c).readBatches h.batchLimit count = (answers, l) ∧
      ∀ answer ∈ answers, ∃ rows, answer = .ok (rows, true) := by
  induction n generalizing source l with
  | zero =>
    cases hsource
    cases hopens with
    | computed hw => exact ⟨_, _, 0, [], hw, rfl, by simp⟩
  | succ n ih =>
    cases hopens with
    | computed hw => exact ⟨_, _, 0, [], hw, rfl, by simp⟩
    | opened hpeeked =>
      -- the job before has left the cursor open
      obtain ⟨job, hj, hnext⟩ := Option.bind_eq_some_iff.mp hsource
      obtain ⟨source₀, hsource₀, hfrom⟩ := hnum.jobs n job hj
      cases job with
      | finished result =>
        cases result with
        | ready batch next =>
          cases hnext
          obtain ⟨l₀, l', more, hopens₀, hread, hleaves⟩ := hfrom
          cases hleaves with
          | more hw hreads hnext =>
            obtain ⟨w, c, count, answers, hw, hanswers, hmore⟩ := ih hsource₀ hopens₀
            refine ⟨w, c, count + 1, _, hw, Lookahead.readBatches_append hanswers hmore hread, ?_⟩
            simpa [or_imp, forall_and] using hmore
        | failed cause | crashed => cases hnext
      | _ => cases hnext

/-- In every run a batch job reads what earlier ones have left of the cursor of a computation. -/
theorem readBatches_of_run {factory : Factory} {idleTimeout start : Nat}
    {as : List (Nat × Action)} {h : Holder}
    (hrun : (Holder.new factory idleTimeout start).run as = some h) {j : Nat} {l : Lookahead}
    (hj : h.jobs[j]? = some (.reading l)) :
    ∃ (w : Nat) (c : Cursor) (count : Nat) (answers : List BatchAnswer),
      h.workers[w]? = some (.finished (.ok c)) ∧
      (Lookahead.ofCursor c).readBatches h.batchLimit count = (answers, l) ∧
      ∀ answer ∈ answers, ∃ rows, answer = .ok (rows, true) := by
  have hnum := run_numbered hrun
  obtain ⟨source, hsource, hopens⟩ := hnum.jobs j _ hj
  exact hnum.exists_readBatches hsource hopens

end Holder

/-! ## Answers to requests -/

namespace Cursor

variable {c cursor : Cursor} {n : Nat}

/-- None of the first answers is a fault. -/
def Faultless (c : Cursor) (n : Nat) : Prop :=
  ∀ i < n, ∀ fault, c.answer (c.asked + i) ≠ .fault fault

/-- The answer of a cursor of which a request tells. -/
def answerOf : Except Fault (Option Row) → RowAnswer
  | .ok (some row) => .row row
  | .ok none => .exhausted
  | .error fault => .fault fault

theorem answer_of_next {outcome : Except Fault (Option Row)}
    (hnext : (c.skip n).next = (outcome, cursor)) :
    cursor = c.skip (n + 1) ∧ c.answer (c.asked + n) = answerOf outcome := by
  obtain ⟨rfl, rfl⟩ := Prod.mk.inj hnext
  refine ⟨rfl, ?_⟩
  dsimp only [skip]
  cases c.answer (c.asked + n) <;> rfl

theorem rowAt?_of_next {outcome : Except Fault (Option Row)}
    (hnext : (c.skip n).next = (outcome, cursor)) : c.rowAt? n = outcome.toOption.join := by
  rw [rowAt?, (answer_of_next hnext).2]
  rcases outcome with fault | _ | row <;> rfl

theorem next_of_row {row : Row} (hrow : c.rowAt? n = some row) :
    (c.skip n).next = (.ok (some row), c.skip (n + 1)) := by
  unfold rowAt? at hrow
  split at hrow
  · rename_i hanswer
    cases hrow
    simp [next, skip, hanswer, Nat.add_assoc]
  · cases hrow

theorem firstRows_succ_of_none (hrow : c.rowAt? n = none) :
    c.firstRows (n + 1) = c.firstRows n := by
  rw [firstRows_add]
  simp [rowsFrom, hrow]

theorem Faultless.succ {row : Option Row} (h : c.Faultless n)
    (hnext : (c.skip n).next = (.ok row, cursor)) : c.Faultless (n + 1) := by
  intro i hi
  rcases Nat.lt_succ_iff_lt_or_eq.mp hi with hlt | rfl
  · exact h i hlt
  · rw [(answer_of_next hnext).2]
    cases row <;> exact nofun

end Cursor

namespace Lookahead

/-- All requests were answered. The answers were the delivered rows, the row that is held, and
`ends` times that there is none. -/
def Served (l : Lookahead) (c : Cursor) (delivered : List Row) (ends : Nat) : Prop :=
  ∃ n, l.cursor = c.skip n ∧ c.Faultless n ∧ c.firstRows n = delivered ++ l.peeked.toList ∧
    n = (c.firstRows n).length + ends

/-- The last request failed. The answers before it had the delivered rows, and those that were
lost. -/
def Broken (l : Lookahead) (c : Cursor) (delivered : List Row) : Prop :=
  ∃ n fault, l.cursor = c.skip (n + 1) ∧ l.peeked = none ∧ c.Faultless n ∧
    c.answer (c.asked + n) = .fault fault ∧ delivered <+: c.firstRows (n + 1)

variable {l : Lookahead} {c cursor cursor' : Cursor} {delivered rows : List Row} {ends : Nat}

theorem served_ofCursor (c : Cursor) : (ofCursor c).Served c [] 0 :=
  ⟨0, rfl, nofun, rfl, rfl⟩

/-- The row that is held is the next one. -/
theorem served_peeked_iff {row : Row} :
    Served ⟨cursor, some row⟩ c delivered ends ↔
      Served ⟨cursor, none⟩ c (delivered ++ [row]) ends := by
  simp [Served]

theorem Served.row {row : Row} (h : Served ⟨cursor, none⟩ c delivered ends)
    (hnext : cursor.next = (.ok (some row), cursor')) :
    Served ⟨cursor', none⟩ c (delivered ++ [row]) ends := by
  obtain ⟨n, rfl, hfaultless, hrows, hn⟩ := h
  have hsucc := Cursor.firstRows_succ_of_some (Cursor.rowAt?_of_next hnext)
  refine ⟨n + 1, (Cursor.answer_of_next hnext).1, hfaultless.succ hnext, ?_, ?_⟩
  · rw [hsucc, hrows, Option.toList_none, List.append_nil, List.append_nil]
  · rw [hsucc, List.length_append, List.length_singleton]
    omega

theorem Served.exhausted (h : Served ⟨cursor, none⟩ c delivered ends)
    (hnext : cursor.next = (.ok none, cursor')) :
    Served ⟨cursor', none⟩ c delivered (ends + 1) := by
  obtain ⟨n, rfl, hfaultless, hrows, hn⟩ := h
  have hsucc := Cursor.firstRows_succ_of_none (Cursor.rowAt?_of_next hnext)
  refine ⟨n + 1, (Cursor.answer_of_next hnext).1, hfaultless.succ hnext, hsucc.trans hrows, ?_⟩
  rw [hsucc]
  omega

theorem Served.fault {fault : Fault} (h : Served ⟨cursor, none⟩ c delivered ends)
    (hnext : cursor.next = (.error fault, cursor')) : Broken ⟨cursor', none⟩ c delivered := by
  obtain ⟨n, rfl, hfaultless, hrows, -⟩ := h
  obtain ⟨hcursor, hanswer⟩ := Cursor.answer_of_next hnext
  refine ⟨n, fault, hcursor, rfl, hfaultless, hanswer, ?_⟩
  rw [Cursor.firstRows_succ_of_none (Cursor.rowAt?_of_next hnext), hrows]
  exact List.prefix_append _ _

/-- Rows that are lost with a failure were not delivered. -/
theorem Broken.of_append (h : l.Broken c (delivered ++ rows)) : l.Broken c delivered := by
  obtain ⟨n, fault, hcursor, hpeeked, hfaultless, hfault, hrows⟩ := h
  exact ⟨n, fault, hcursor, hpeeked, hfaultless, hfault, (List.prefix_append _ _).trans hrows⟩

/-- A row that is asked for is delivered. -/
theorem Served.next (h : l.Served c delivered ends) :
    match l.next with
    | (.ok (some row), l') => l'.Served c (delivered ++ [row]) ends
    | (.ok none, l') => l'.Served c delivered (ends + 1)
    | (.error _, l') => l'.Broken c delivered := by
  obtain ⟨cursor, _ | row⟩ := l
  · simp only [Lookahead.next]
    cases hcursor : cursor.next with
    | mk outcome cursor' =>
      rcases outcome with fault | _ | row
      · exact h.fault hcursor
      · exact h.exhausted hcursor
      · exact h.row hcursor
  · exact served_peeked_iff.mp h

/-- Reading fewer rows than asked for takes one answer that there is none. -/
theorem Served.read (h : l.Served c delivered ends) (limit : Nat) :
    match l.read limit with
    | (.ok rows, l') =>
      l'.Served c (delivered ++ rows) (ends + if rows.length < limit then 1 else 0)
    | (.error _, l') => l'.Broken c delivered := by
  induction limit generalizing l delivered with
  | zero => simpa [Lookahead.read] using h
  | succ limit ih =>
    -- rows read before a failure are lost, so they do not count as delivered there
    have hnext := h.next
    rw [Lookahead.read]
    split at hnext <;> rename_i heq <;> rw [heq]
    · rename_i row l₁
      have hrest := ih hnext
      dsimp only
      split at hrest <;> rename_i heq₁ <;> rw [heq₁]
      · simpa using hrest
      · exact hrest.of_append
    · simpa using hnext
    · exact hnext

/-- Looking for another row takes one answer that there is none, if there is none. -/
theorem Served.hasMore (h : l.Served c delivered ends) :
    match l.hasMore with
    | (.ok more, l') => l'.Served c delivered (ends + if more then 0 else 1)
    | (.error _, l') => l'.Broken c delivered := by
  obtain ⟨cursor, _ | row⟩ := l
  · simp only [Lookahead.hasMore]
    cases hcursor : cursor.next with
    | mk outcome cursor' =>
      rcases outcome with fault | _ | row
      · exact h.fault hcursor
      · exact h.exhausted hcursor
      · exact served_peeked_iff.mpr (h.row hcursor)
  · exact h

/-- A batch takes one answer that there is no row if it is short, and one if it is the last. -/
theorem Served.readBatch (h : l.Served c delivered ends) (limit : Nat) :
    match l.readBatch limit with
    | (.ok (rows, more), l') =>
      l'.Served c (delivered ++ rows)
        (ends + (if rows.length < limit then 1 else 0) + if more then 0 else 1)
    | (.error _, l') => l'.Broken c delivered := by
  have hread := h.read limit
  unfold Lookahead.readBatch
  split at hread <;> rename_i heq <;> rw [heq]
  · have hmore := hread.hasMore
    dsimp only
    split at hmore <;> rename_i heq₁ <;> rw [heq₁]
    · exact hmore
    · exact hmore.of_append
  · exact hread

/-- The rows of successive batches, one after the other. -/
def deliveredRows (answers : List BatchAnswer) : List Row :=
  answers.flatMap BatchAnswer.rows

/-- Over successive batches, each one that is short takes one answer that there is no row, and so
does the last one. -/
theorem Served.readBatches (h : l.Served c delivered ends) (limit count : Nat) :
    match l.readBatches limit count with
    | (answers, l') =>
      (l'.Served c (delivered ++ deliveredRows answers)
          (ends + answers.countP (BatchAnswer.isShort limit) + answers.countP BatchAnswer.isLast) ∧
        ∀ answer ∈ answers, fault? answer = none) ∨
      (l'.Broken c (delivered ++ deliveredRows answers) ∧
        ∃ answer ∈ answers, fault? answer ≠ none) := by
  induction count generalizing l delivered ends with
  | zero => simpa [Lookahead.readBatches, deliveredRows] using h
  | succ count ih =>
    have hserved := h.readBatch limit
    rcases hread : l.readBatch limit with ⟨answer, l₁⟩
    rw [hread] at hserved
    -- a batch that failed, the last one, and one after which others are read
    rcases answer with fault | ⟨rows, _ | _⟩
    · rw [readBatches_of_not_more hread nofun]
      simpa [deliveredRows, BatchAnswer.rows, fault?] using hserved
    · rw [readBatches_of_not_more hread (by simp)]
      refine .inl ⟨?_, by simp [fault?]⟩
      simpa [deliveredRows, BatchAnswer.rows, BatchAnswer.isShort, BatchAnswer.isLast,
        List.countP_cons] using hserved
    · rw [readBatches_of_more hread]
      have hends (rest : List BatchAnswer) :
          ends + (if rows.length < limit then 1 else 0) +
              rest.countP (BatchAnswer.isShort limit) + rest.countP BatchAnswer.isLast =
            ends + (.ok (rows, true) :: rest).countP (BatchAnswer.isShort limit) +
              (.ok (rows, true) :: rest).countP BatchAnswer.isLast := by
        simp only [List.countP_cons, BatchAnswer.isShort, BatchAnswer.isLast, decide_eq_true_eq,
          Bool.not_true, Bool.false_eq_true, if_false]
        omega
      refine (ih hserved).imp ?_ ?_
      · rintro ⟨hrest, hfaults⟩
        refine ⟨?_, List.forall_mem_cons.mpr ⟨rfl, hfaults⟩⟩
        rw [List.append_assoc, if_pos rfl, Nat.add_zero, hends] at hrest
        exact hrest
      · rintro ⟨hrest, answer, hanswer, hfault⟩
        refine ⟨?_, answer, List.mem_cons_of_mem _ hanswer, hfault⟩
        rw [List.append_assoc] at hrest
        exact hrest

end Lookahead

/-! ## The end of a cursor -/

/-- The first answers are rows, and the one after them is none. -/
structure Cursor.EndsAt (c : Cursor) (size : Nat) : Prop where
  rows : ∀ i < size, (c.rowAt? i).isSome = true
  last : c.rowAt? size = none

namespace Lookahead

/-- Before the end of the cursor at `size`, and with `left` rows to go, the one that is held among
them. -/
def Before (l : Lookahead) (c : Cursor) (size left : Nat) : Prop :=
  match l.peeked with
  | some _ => ∃ n ≤ size, l.cursor = c.skip n ∧ n + left = size + 1
  | none => ∃ n, l.cursor = c.skip n ∧ n + left = size

variable {l : Lookahead} {c : Cursor} {size left limit count : Nat}

theorem before_ofCursor (c : Cursor) (size : Nat) : (ofCursor c).Before c size size :=
  ⟨0, rfl, Nat.zero_add _⟩

/-- No request was made past the rows. -/
theorem Before.exists_skip_le (h : l.Before c size left) : ∃ n ≤ size, l.cursor = c.skip n := by
  obtain ⟨cursor, _ | row⟩ := l
  · obtain ⟨n, hcursor, hleft⟩ := h
    exact ⟨n, by omega, hcursor⟩
  · obtain ⟨n, hn, hcursor, -⟩ := h
    exact ⟨n, hn, hcursor⟩

/-- Without rows to go, none is held and the last one has been asked for. -/
theorem Before.eq_of_zero (h : l.Before c size 0) : l = ⟨c.skip size, none⟩ := by
  obtain ⟨cursor, _ | row⟩ := l
  · obtain ⟨n, rfl, rfl⟩ := h
    rfl
  · obtain ⟨n, hn, -, hleft⟩ := h
    omega

section

variable (hend : c.EndsAt size)
include hend

theorem exists_next_of_lt {n : Nat} (hn : n < size) :
    ∃ row, (c.skip n).next = (.ok (some row), c.skip (n + 1)) := by
  obtain ⟨row, hrow⟩ := Option.isSome_iff_exists.mp (hend.rows n hn)
  exact ⟨row, Cursor.next_of_row hrow⟩

/-- At the end the cursor is exhausted or fails. -/
theorem exists_next_at_end : ∃ outcome, (c.skip size).next = (outcome, c.skip (size + 1)) ∧
    (outcome = .ok none ∧ c.answer (c.asked + size) = .exhausted ∨
      ∃ fault, outcome = .error fault ∧ c.answer (c.asked + size) = .fault fault) := by
  obtain ⟨outcome, hnext⟩ : ∃ outcome, (c.skip size).next = (outcome, c.skip (size + 1)) := ⟨_, rfl⟩
  obtain ⟨-, hanswer⟩ := Cursor.answer_of_next hnext
  refine ⟨outcome, hnext, ?_⟩
  rcases outcome with fault | _ | row
  · exact .inr ⟨fault, rfl, hanswer⟩
  · exact .inl ⟨rfl, hanswer⟩
  · cases hend.last.symm.trans (Cursor.rowAt?_of_next hnext)

theorem Before.next (h : l.Before c size (left + 1)) :
    ∃ row cursor, l.next = (.ok (some row), ⟨cursor, none⟩) ∧
      Before ⟨cursor, none⟩ c size left := by
  obtain ⟨cursor, _ | row⟩ := l
  · obtain ⟨n, rfl, hleft⟩ := h
    obtain ⟨row, hnext⟩ := exists_next_of_lt hend (show n < size by omega)
    exact ⟨row, c.skip (n + 1), by simp [Lookahead.next, hnext], n + 1, rfl, by omega⟩
  · obtain ⟨n, -, rfl, hleft⟩ := h
    exact ⟨row, c.skip n, rfl, n, rfl, by omega⟩

/-- Where there are at least as many rows as asked for, all of them come from before the end. -/
theorem Before.read_full (h : l.Before c size (limit + 1 + left)) :
    ∃ rows cursor, l.read (limit + 1) = (.ok rows, ⟨cursor, none⟩) ∧
      Before ⟨cursor, none⟩ c size left := by
  induction limit generalizing l with
  | zero =>
    rw [Nat.zero_add, Nat.add_comm] at h
    obtain ⟨row, cursor, hnext, hl'⟩ := h.next hend
    exact ⟨[row], cursor, by simp [Lookahead.read, hnext], hl'⟩
  | succ limit ih =>
    rw [Nat.add_right_comm (limit + 1) 1 left] at h
    obtain ⟨row, cursor, hnext, hl'⟩ := h.next hend
    obtain ⟨rows, cursor', hread, hl''⟩ := ih hl'
    exact ⟨row :: rows, cursor', by rw [Lookahead.read, hnext]; simp [hread], hl''⟩

/-- Where there are fewer rows than asked for, reading goes on to the end and asks once there. -/
theorem Before.read_short (h : l.Before c size left) (hlimit : left < limit) :
    ∃ outcome, l.read limit = (outcome, ⟨c.skip (size + 1), none⟩) ∧
      (c.answer (c.asked + size) = .exhausted ↔ ∃ rows, outcome = .ok rows) := by
  induction left generalizing l limit with
  | zero =>
    obtain ⟨limit, rfl⟩ := Nat.exists_eq_add_one_of_ne_zero (Nat.ne_of_gt hlimit)
    obtain ⟨outcome, hnext, hanswer⟩ := exists_next_at_end hend
    rw [h.eq_of_zero, Lookahead.read]
    obtain ⟨rfl, hanswer⟩ | ⟨fault, rfl, hanswer⟩ := hanswer
    · exact ⟨.ok [], by simp [Lookahead.next, hnext], by simp [hanswer]⟩
    · exact ⟨.error fault, by simp [Lookahead.next, hnext], by simp [hanswer]⟩
  | succ left ih =>
    have hpositive : 0 < limit := Nat.zero_lt_of_lt hlimit
    obtain ⟨limit, rfl⟩ := Nat.exists_eq_add_one_of_ne_zero (Nat.ne_of_gt hpositive)
    obtain ⟨row, cursor, hnext, hl'⟩ := h.next hend
    obtain ⟨outcome, hread, hanswer⟩ := ih hl' (Nat.lt_of_succ_lt_succ hlimit)
    rw [Lookahead.read, hnext]
    simp only [hread]
    rw [hanswer]
    cases outcome with
    | ok rows => exact ⟨.ok (row :: rows), rfl, by simp⟩
    | error fault => exact ⟨.error fault, rfl, by simp⟩

/-! ### Batches at the end -/

/-- With more rows than a batch may have, there is a full batch, and a row is held after it. -/
theorem Before.readBatch_more (h : l.Before c size (limit + 1 + (left + 1))) :
    ∃ rows l', l.readBatch (limit + 1) = (.ok (rows, true), l') ∧ l'.Before c size (left + 1) := by
  obtain ⟨rows, cursor, hread, n, rfl, hleft⟩ := h.read_full hend
  obtain ⟨row, hnext⟩ := exists_next_of_lt hend (show n < size by omega)
  refine ⟨rows, ⟨c.skip (n + 1), some row⟩, ?_, n + 1, by omega, rfl, by omega⟩
  simp [Lookahead.readBatch, hread, hasMore, hnext]

/-- With as many rows as a batch may have, the cursor is asked once past them. -/
theorem Before.readBatch_last (h : l.Before c size (limit + 1)) :
    ∃ answer, l.readBatch (limit + 1) = (answer, ⟨c.skip (size + 1), none⟩) ∧
      ∀ rows, answer ≠ .ok (rows, true) := by
  have hfull : l.Before c size (limit + 1 + 0) := h
  obtain ⟨rows, cursor, hread, hl'⟩ := hfull.read_full hend
  cases hl'.eq_of_zero
  obtain ⟨outcome, hnext, ⟨rfl, -⟩ | ⟨fault, rfl, -⟩⟩ := exists_next_at_end hend
  · exact ⟨.ok (rows, false), by simp [Lookahead.readBatch, hread, hasMore, hnext], by simp⟩
  · exact ⟨.error fault, by simp [Lookahead.readBatch, hread, hasMore, hnext], by simp⟩

/-- With fewer rows than a batch may have, an exhausted cursor is asked twice past them: reading
stops at its answer, but the lookahead that looks for another row does not remember it. -/
theorem Before.readBatch_short (h : l.Before c size left) (hlimit : left < limit)
    (hexhausted : c.answer (c.asked + size) = .exhausted) :
    ∃ answer l', l.readBatch limit = (answer, l') ∧ l'.cursor = c.skip (size + 2) ∧
      (c.rowAt? (size + 1) = none → ∀ rows, answer ≠ .ok (rows, true)) := by
  obtain ⟨outcome, hread, houtcome⟩ := h.read_short hend hlimit
  obtain ⟨rows, rfl⟩ := houtcome.mp hexhausted
  obtain ⟨outcome, hnext⟩ : ∃ outcome,
      (c.skip (size + 1)).next = (outcome, c.skip (size + 2)) := ⟨_, rfl⟩
  rcases outcome with fault | _ | row
  · refine ⟨.error fault, ⟨c.skip (size + 2), none⟩, ?_, rfl, by simp⟩
    simp [Lookahead.readBatch, hread, hasMore, hnext]
  · refine ⟨.ok (rows, false), ⟨c.skip (size + 2), none⟩, ?_, rfl, by simp⟩
    simp [Lookahead.readBatch, hread, hasMore, hnext]
  · refine ⟨.ok (rows, true), ⟨c.skip (size + 2), some row⟩, ?_, rfl, fun hnone => ?_⟩
    · simp [Lookahead.readBatch, hread, hasMore, hnext]
    · cases hnone.symm.trans (Cursor.rowAt?_of_next hnext)

/-- With fewer rows than a batch may have, a cursor that fails past them is not asked again. -/
theorem Before.readBatch_fault (h : l.Before c size left) (hlimit : left < limit)
    (hexhausted : c.answer (c.asked + size) ≠ .exhausted) :
    ∃ fault, l.readBatch limit = (.error fault, ⟨c.skip (size + 1), none⟩) := by
  obtain ⟨outcome, hread, houtcome⟩ := h.read_short hend hlimit
  cases outcome with
  | ok rows => exact absurd (houtcome.mpr ⟨rows, rfl⟩) hexhausted
  | error fault => exact ⟨fault, by simp [Lookahead.readBatch, hread]⟩

/-- The cursor is asked more than once past its rows if it is exhausted there, and a batch that
comes to them is not full. -/
theorem Before.requests_readBatches (hlimit : 0 < limit) (h : l.Before c size left) (count : Nat) :
    (c.asked + size + 1 < (l.readBatches limit count).2.cursor.asked ↔
      c.answer (c.asked + size) = .exhausted ∧ left / limit < count ∧
        (left = 0 ∨ ¬ limit ∣ left)) ∧
    (c.rowAt? (size + 1) = none →
      (l.readBatches limit count).2.cursor.asked ≤ c.asked + size + 2) := by
  induction count generalizing l left with
  | zero =>
    obtain ⟨n, hn, hcursor⟩ := h.exists_skip_le
    have hasked : l.cursor.asked = c.asked + n := congrArg Cursor.asked hcursor
    simp only [readBatches, hasked, Nat.not_lt_zero, false_and, and_false, iff_false]
    omega
  | succ count ih =>
    obtain ⟨limit, rfl⟩ := Nat.exists_eq_add_one_of_ne_zero (Nat.ne_of_gt hlimit)
    rcases Nat.lt_trichotomy left (limit + 1) with hlt | rfl | hlt
    · -- the batch comes to the end and is not full
      have hfirst : left / (limit + 1) < count + 1 := by
        rw [Nat.div_eq_of_lt hlt]
        exact Nat.succ_pos count
      have hshort : left = 0 ∨ ¬ limit + 1 ∣ left := by
        rw [Classical.or_iff_not_imp_left]
        exact fun hleft => Nat.not_dvd_of_pos_of_lt (Nat.pos_of_ne_zero hleft) hlt
      simp only [hfirst, hshort, and_true]
      by_cases hexhausted : c.answer (c.asked + size) = .exhausted
      · obtain ⟨answer, l', hread, hcursor, hmore⟩ := h.readBatch_short hend hlt hexhausted
        have hasked : l'.cursor.asked = c.asked + size + 2 := congrArg Cursor.asked hcursor
        refine ⟨iff_of_true ?_ hexhausted, fun hrow => ?_⟩
        · have hle := l.asked_readBatch_le (limit + 1) count
          rw [hread] at hle
          dsimp only at hle
          omega
        · rw [readBatches_of_not_more hread (hmore hrow)]
          exact Nat.le_of_eq hasked
      · obtain ⟨fault, hread⟩ := h.readBatch_fault hend hlt hexhausted
        rw [readBatches_of_not_more hread nofun]
        simp only [Cursor.skip, hexhausted, iff_false]
        omega
    · -- the batch is full when the rows end
      obtain ⟨answer, hread, hmore⟩ := h.readBatch_last hend
      have hfull : ¬ (limit + 1 = 0 ∨ ¬ limit + 1 ∣ limit + 1) := by simp
      rw [readBatches_of_not_more hread hmore]
      simp only [Cursor.skip, hfull, and_false, iff_false]
      omega
    · -- the batch is full, and the others start with the row that is held
      obtain ⟨d, rfl⟩ := Nat.exists_eq_add_of_lt hlt
      have hmore : l.Before c size (limit + 1 + (d + 1)) := h
      obtain ⟨rows, l', hread, hl'⟩ := hmore.readBatch_more hend
      obtain ⟨ihpast, ihend⟩ := ih hl'
      rw [readBatches_of_more hread]
      refine ⟨ihpast.trans ?_, ihend⟩
      rw [Nat.add_assoc (limit + 1) d 1, Nat.add_div_left _ hlimit,
        Nat.dvd_add_right (Nat.dvd_refl _)]
      simp

end

/-- The requests past the end of a cursor, by their number. -/
theorem requests_past_end {answers : List BatchAnswer} {requests : Nat}
    (hreads : (ofCursor c).readBatches limit count = (answers, l))
    (hcursor : l.cursor = c.skip requests) (hend : c.EndsAt size) (hlimit : 0 < limit) :
    (size + 1 < requests ↔ c.answer (c.asked + size) = .exhausted ∧ size / limit < count ∧
        (size = 0 ∨ ¬ limit ∣ size)) ∧
      (c.rowAt? (size + 1) = none → requests ≤ size + 2) := by
  obtain ⟨hpast, hbound⟩ := (before_ofCursor c size).requests_readBatches hend hlimit count
  have hasked : l.cursor.asked = c.asked + requests := congrArg Cursor.asked hcursor
  rw [hreads] at hpast hbound
  simp only [hasked] at hpast hbound
  have hlt : size + 1 < requests ↔ c.asked + size + 1 < c.asked + requests := by omega
  refine ⟨hlt.trans hpast, fun hrow => ?_⟩
  have hle := hbound hrow
  omega

/-- How often a cursor is asked for a row while batches are read from it. No request follows one
that failed, and the rows are delivered or held, each one once. If nothing failed, there is one
request for each of these rows, one for each batch with fewer rows than it may have, and one for the
batch that leaves no row. So a cursor that is exhausted after `size` rows is asked again if a batch
that comes to its end is not full, and otherwise it is not. -/
theorem requests_of_readBatches (c : Cursor) (limit count : Nat) : ∃ answers l requests,
    (ofCursor c).readBatches limit count = (answers, l) ∧
      l.cursor = c.skip requests ∧ c.Faultless (requests - 1) ∧
      deliveredRows answers ++ l.peeked.toList <+: c.firstRows requests ∧
      ((∀ answer ∈ answers, fault? answer = none) →
        c.firstRows requests = deliveredRows answers ++ l.peeked.toList ∧
        requests = (deliveredRows answers).length + l.peeked.toList.length +
          answers.countP (BatchAnswer.isShort limit) + answers.countP BatchAnswer.isLast) ∧
      ∀ size, c.EndsAt size → 0 < limit →
        (size + 1 < requests ↔ c.answer (c.asked + size) = .exhausted ∧ size / limit < count ∧
          (size = 0 ∨ ¬ limit ∣ size)) ∧
        (c.rowAt? (size + 1) = none → requests ≤ size + 2) := by
  have hserved := (served_ofCursor c).readBatches limit count
  rcases hreads : (ofCursor c).readBatches limit count with ⟨answers, l⟩
  rw [hreads] at hserved
  obtain ⟨⟨n, hcursor, hfaultless, hrows, hn⟩, -⟩ |
    ⟨⟨n, fault, hcursor, hpeeked, hfaultless, -, hrows⟩, answer, hanswer, hfault⟩ := hserved
  · rw [List.nil_append] at hrows
    rw [hrows, List.length_append, Nat.zero_add, ← Nat.add_assoc] at hn
    refine ⟨answers, l, n, rfl, hcursor, fun i hi => hfaultless i (by omega), ?_,
      fun _ => ⟨hrows, hn⟩, fun size => requests_past_end hreads hcursor⟩
    exact hrows ▸ List.prefix_refl _
  · refine ⟨answers, l, n + 1, rfl, hcursor, hfaultless, ?_, fun hnone => ?_,
      fun size => requests_past_end hreads hcursor⟩
    · simpa [hpeeked] using hrows
    · exact absurd (hnone answer hanswer) hfault

/-- An execution that gives numbered rows and nothing else. -/
def numberedRows (rows : Nat) : ScriptedRun :=
  { ScriptedRun.empty with rows }

theorem endsAt_numberedRows {rows : Nat} {c : Cursor}
    (h : (numberedRows rows).outcome 0 = .ok c) :
    c.EndsAt rows ∧ c.answer (c.asked + rows) = .exhausted ∧ c.rowAt? (rows + 1) = none := by
  cases h
  have hpast : ¬ rows + 1 < rows := by omega
  refine ⟨⟨fun i hi => ?_, ?_⟩, ?_, ?_⟩ <;>
    simp [Cursor.rowAt?, ScriptedRun.answer, numberedRows, ScriptedRun.empty, *]

/-- In batches of two, a cursor of three rows is asked twice past its end, and one of four rows at
most once. -/
theorem requests_of_readBatches_pairs : ∃ three four requests,
    (numberedRows 3).outcome 0 = .ok three ∧ (numberedRows 4).outcome 0 = .ok four ∧
      ((ofCursor three).readBatches 2 5).2.cursor = three.skip 5 ∧
      ((ofCursor four).readBatches 2 5).2.cursor = four.skip requests ∧ requests ≤ 5 := by
  obtain ⟨three, hthree⟩ : ∃ c, (numberedRows 3).outcome 0 = .ok c := ⟨_, rfl⟩
  obtain ⟨four, hfour⟩ : ∃ c, (numberedRows 4).outcome 0 = .ok c := ⟨_, rfl⟩
  obtain ⟨hend, hexhausted, hpast⟩ := endsAt_numberedRows hthree
  obtain ⟨hend', -, -⟩ := endsAt_numberedRows hfour
  obtain ⟨_, l, requests, hreads, hcursor, -, -, -, hrequests⟩ := requests_of_readBatches three 2 5
  obtain ⟨_, l', requests', hreads', hcursor', -, -, -, hrequests'⟩ :=
    requests_of_readBatches four 2 5
  obtain ⟨hagain, hle⟩ := hrequests 3 hend (by decide)
  obtain ⟨hagain', -⟩ := hrequests' 4 hend' (by decide)
  have htwice : 4 < requests := hagain.mpr ⟨hexhausted, by decide, by decide⟩
  have honce : ¬ 5 < requests' := fun hlt => by simpa using (hagain'.mp hlt).2.2
  obtain rfl : requests = 5 := Nat.le_antisymm (hle hpast) htwice
  refine ⟨three, four, requests', hthree, hfour, ?_, ?_, Nat.le_of_not_lt honce⟩
  · rw [hreads, hcursor]
  · rw [hreads', hcursor']

/-! ### A cursor that fails past its end -/

/-- One row, then no more, and a failure if it is asked again. -/
def rowThenError : ScriptedRun :=
  { ScriptedRun.empty with rows := 1, rowError := some 2 }

/-- With up to five rows in a batch the only row is lost. -/
theorem readBatches_rowThenError :
    ∃ c, rowThenError.outcome 0 = .ok c ∧ c.asked = 0 ∧ c.answer 1 = .exhausted ∧
      (ofCursor c).readBatches 5 1 = ([.error (.failed "row error")], ⟨c.skip 3, none⟩) :=
  ⟨_, rfl, rfl, rfl, rfl⟩

/-- A request may follow the answer that there is no row. -/
theorem not_last_request_of_exhausted :
    ¬ ∀ (c : Cursor) (limit count i : Nat), 0 < limit →
      c.asked + i + 1 < ((ofCursor c).readBatches limit count).2.cursor.asked →
      c.answer (c.asked + i) ≠ .exhausted := by
  intro hnever
  obtain ⟨c, -, hasked, hexhausted, hreads⟩ := readBatches_rowThenError
  refine hnever c 5 1 1 (by decide) ?_ ?_
  · rw [hreads]
    exact Nat.lt_succ_self _
  · rwa [hasked]

end Lookahead

end PagedQuery.Task
