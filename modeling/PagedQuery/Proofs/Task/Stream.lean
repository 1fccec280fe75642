import PagedQuery.Proofs.Task.Reading
import PagedQuery.Proofs.Task.Run

/-!
# The stream of a task

The computations of a task give one cursor after the other: another one if the
cursor before it is drained and promises more. The rows of these cursors, one
after the other, are the stream of the task. It may have no end, and cursors in
it may be empty. Batches are cut off from its front.

* `Factory.Yields`: the cursors of a task, each with the rows before it;
* `Factory.Reliable`: tasks on which nothing fails;
* `Factory.StreamPrefix`, `Factory.WholeStream`: the beginnings of the stream, and all of it;
* `Position`, `Follows`, `Factory.Serves`: batches, and where they leave off;
* `Factory.Delivers`: what a batch has, and what it says.
-/

namespace PagedQuery.Task

namespace Factory

/-- The cursor that the `k`-th computation gives, and the rows of all cursors before it. -/
inductive Yields (f : Factory) : Nat → List Row → Cursor → Prop where
  | first {c : Cursor} (hexecute : f.backend.execute 0 0 = .ok c) : Yields f 0 [] c
  | next {k n : Nat} {before : List Row} {c c' : Cursor} (hk : Yields f k before c)
      (hend : c.rowAt? n = none) (hpromise : c.hasNextBatch = true)
      (hexecute : f.backend.execute 0 (k + 1) = .ok c') :
      Yields f (k + 1) (before ++ c.firstRows n) c'

/-- Nothing fails: the task can be made, the database is there, and every computation that is
asked for gives a cursor without surprises. -/
structure Reliable (f : Factory) : Prop where
  create : f.createError = none
  connect : f.backend.connect 0 = .ok ()
  first : ∃ c, f.backend.execute 0 0 = .ok c
  next : ∀ {k before c n}, f.Yields k before c → c.rowAt? n = none → c.hasNextBatch = true →
    ∃ c', f.backend.execute 0 (k + 1) = .ok c'
  regular : ∀ {k before c}, f.Yields k before c → c.Regular

/-- Rows that the stream begins with. -/
def StreamPrefix (f : Factory) (rows : List Row) : Prop :=
  ∃ k before c n, f.Yields k before c ∧ rows = before ++ c.firstRows n

/-- All rows of the stream. -/
def WholeStream (f : Factory) (rows : List Row) : Prop :=
  ∃ k before c n, f.Yields k before c ∧ c.rowAt? n = none ∧ c.hasNextBatch = false ∧
    rows = before ++ c.firstRows n

/-- A cursor that was promised has rows. -/
def KeepsPromises (f : Factory) : Prop :=
  ∀ k before c, f.Yields (k + 1) before c → c.rowAt? 0 ≠ none

variable {f : Factory} {k : Nat} {before : List Row} {c : Cursor}

theorem Yields.execute_eq (h : f.Yields k before c) : f.backend.execute 0 k = .ok c := by
  cases h with
  | first hexecute => exact hexecute
  | next _ _ _ hexecute => exact hexecute

/-- There is one `k`-th cursor, and one list of rows before it. -/
theorem Yields.unique (hf : f.Reliable) (h : f.Yields k before c) {before' : List Row}
    {c' : Cursor} (h' : f.Yields k before' c') : before = before' ∧ c = c' := by
  have hcursor : c = c' := Except.ok.inj (h.execute_eq.symm.trans h'.execute_eq)
  refine ⟨?_, hcursor⟩
  induction h generalizing before' c' with
  | first _ =>
    cases h'
    rfl
  | next hk hend _ _ ih =>
    cases h' with
    | next hk' hend' _ _ =>
      have hprevious := Except.ok.inj (hk.execute_eq.symm.trans hk'.execute_eq)
      subst hprevious
      rw [ih hk' rfl, (hf.regular hk).firstRows_eq hend hend']

/-- The rows up to a cursor come before those of any later one, which the cursor promised. -/
theorem Yields.prefix_of_lt (hf : f.Reliable) (h : f.Yields k before c) {k' : Nat}
    {before' : List Row} {c' : Cursor} (h' : f.Yields k' before' c') (hlt : k < k') :
    c.hasNextBatch = true ∧ ∀ n, before ++ c.firstRows n <+: before' := by
  induction h' with
  | first _ => exact absurd hlt (Nat.not_lt_zero k)
  | next hk hend hpromise _ ih =>
    rcases Nat.lt_succ_iff_lt_or_eq.mp hlt with hlt | heq
    · obtain ⟨hnext, hbegins⟩ := ih hlt
      exact ⟨hnext, fun n => (hbegins n).trans (List.prefix_append _ _)⟩
    · subst heq
      obtain ⟨rfl, rfl⟩ := h.unique hf hk
      refine ⟨hpromise, fun n => ?_⟩
      exact (List.prefix_append_right_inj _).mpr
        ((hf.regular hk).prefix_firstRows hend n)

/-- Whatever the stream begins with is a prefix of all its rows, if it has an end. -/
theorem StreamPrefix.isPrefix (hf : f.Reliable) {rows whole : List Row}
    (h : f.StreamPrefix rows) (hwhole : f.WholeStream whole) : rows <+: whole := by
  obtain ⟨k, before, c, n, hyields, rfl⟩ := h
  obtain ⟨k', before', c', n', hyields', hend, hlast, rfl⟩ := hwhole
  rcases Nat.lt_trichotomy k k' with hlt | rfl | hgt
  · exact ((hyields.prefix_of_lt hf hyields' hlt).2 n).trans (List.prefix_append _ _)
  · obtain ⟨rfl, rfl⟩ := hyields.unique hf hyields'
    exact (List.prefix_append_right_inj _).mpr
      ((hf.regular hyields).prefix_firstRows hend n)
  · have hpromise := (hyields'.prefix_of_lt hf hyields hgt).1
    rw [hlast] at hpromise
    cases hpromise

/-- Nothing comes after all rows. -/
theorem WholeStream.not_streamPrefix_concat (hf : f.Reliable) {whole : List Row} {row : Row}
    (hwhole : f.WholeStream whole) : ¬ f.StreamPrefix (whole ++ [row]) := by
  intro hbegins
  have hle := (hbegins.isPrefix hf hwhole).length_le
  rw [List.length_append, List.length_singleton] at hle
  exact Nat.not_succ_le_self _ hle

end Factory

/-! ## Scripted tasks -/

/-- Nothing breaks off or fails in the execution. -/
def ScriptedRun.isPlain (run : ScriptedRun) : Bool :=
  !run.crash && run.fail.isNone && run.rowError.isNone && !run.columnsCrash

theorem ScriptedRun.exists_regular {run : ScriptedRun} (hplain : run.isPlain = true)
    (first : Nat) : ∃ c, run.outcome first = .ok c ∧ c.Regular := by
  obtain ⟨hold, crash, fail, rows, values, rowError, next, columnsCrash⟩ := run
  simp only [isPlain, Bool.and_eq_true, Bool.not_eq_true', Option.isNone_iff_eq_none] at hplain
  obtain ⟨⟨⟨rfl, rfl⟩, rfl⟩, rfl⟩ := hplain
  refine ⟨_, rfl, ?_, ?_, rfl⟩
  · intro i fault
    simp only [answer]
    split
    · rename_i hnone
      cases hnone
    · split
      · exact RowAnswer.noConfusion
      · split <;> exact RowAnswer.noConfusion
  · intro i hi
    simp only [Cursor.rowAt?, answer] at hi ⊢
    grind

namespace Factory

variable {fetchSize : Nat} {script : List ScriptedRun}

theorem exists_regular_ofScript (hplain : script.all ScriptedRun.isPlain = true) (n : Nat) :
    ∃ c, (Factory.ofScript fetchSize script).backend.execute 0 n = .ok c ∧ c.Regular := by
  refine ScriptedRun.exists_regular ?_ 0
  cases hrun : script[n]? with
  | none => rfl
  | some run => exact List.all_eq_true.mp hplain run (List.mem_of_getElem? hrun)

/-- A script in which nothing breaks off or fails makes a task on which nothing does. -/
theorem reliable_ofScript (hplain : script.all ScriptedRun.isPlain = true) :
    (Factory.ofScript fetchSize script).Reliable where
  create := rfl
  connect := rfl
  first := by
    obtain ⟨c, hexecute, -⟩ := exists_regular_ofScript hplain 0
    exact ⟨c, hexecute⟩
  next := by
    intro k before c n _ _ _
    obtain ⟨c', hexecute, -⟩ := exists_regular_ofScript hplain (k + 1)
    exact ⟨c', hexecute⟩
  regular := by
    intro k before c hyields
    obtain ⟨c', hexecute, hregular⟩ := exists_regular_ofScript hplain k
    cases Except.ok.inj (hyields.execute_eq.symm.trans hexecute)
    exact hregular

end Factory

/-! ## Batches -/

/-- A place in the stream: a cursor of the task, with the rows of all cursors before it, and how
many of its rows come before the place. -/
structure Position where
  index : Nat
  before : List Row
  cursor : Cursor
  offset : Nat

namespace Position

/-- The rows of the stream before a place. -/
def rows (p : Position) : List Row :=
  p.before ++ p.cursor.firstRows p.offset

/-- The place after so many more rows of the same cursor. -/
def advance (p : Position) (n : Nat) : Position :=
  { p with offset := p.offset + n }

end Position

/-- The batch goes on from a place with the next rows of its cursor, and leaves off at another
place, or at the end of the stream. -/
inductive Follows (f : Factory) (p : Position) (batch : Batch) : Option Position → Prop where
  /-- The cursor has more rows. -/
  | goOn {row : Row} (hrows : batch.rows = p.cursor.rowsFrom p.offset (max f.fetchSize 1))
      (hmore : p.cursor.rowAt? (p.offset + batch.rows.length) = some row)
      (hnext : batch.hasNext = true) : Follows f p batch (some (p.advance batch.rows.length))
  /-- The cursor is drained, and promises another one. -/
  | chain {c : Cursor} (hrows : batch.rows = p.cursor.rowsFrom p.offset (max f.fetchSize 1))
      (hend : p.cursor.rowAt? (p.offset + batch.rows.length) = none)
      (hpromise : p.cursor.hasNextBatch = true)
      (hexecute : f.backend.execute 0 (p.index + 1) = .ok c) (hnext : batch.hasNext = true) :
      Follows f p batch (some ⟨p.index + 1, (p.advance batch.rows.length).rows, c, 0⟩)
  /-- The cursor is drained, and it is the last one. -/
  | finish (hrows : batch.rows = p.cursor.rowsFrom p.offset (max f.fetchSize 1))
      (hend : p.cursor.rowAt? (p.offset + batch.rows.length) = none)
      (hpromise : p.cursor.hasNextBatch = false) (hnext : batch.hasNext = false) :
      Follows f p batch none

/-- Batches that are cut off from the front of the stream one after the other, and where the last
one leaves off. -/
inductive Factory.Serves (f : Factory) : List Batch → Option Position → Prop where
  | start {c : Cursor} (hexecute : f.backend.execute 0 0 = .ok c) :
      Serves f [] (some ⟨0, [], c, 0⟩)
  | batch {batches : List Batch} {p : Position} {batch : Batch} {next : Option Position}
      (hbatches : Serves f batches (some p)) (hbatch : Follows f p batch next) :
      Serves f (batches ++ [batch]) next

namespace Follows

variable {f : Factory} {p : Position} {batch : Batch} {next : Option Position}

theorem rows_eq (h : Follows f p batch next) :
    batch.rows = p.cursor.rowsFrom p.offset (max f.fetchSize 1) := by
  cases h <;> assumption

theorem length_le (h : Follows f p batch next) : batch.rows.length ≤ max f.fetchSize 1 := by
  rw [h.rows_eq]
  exact p.cursor.length_rowsFrom_le _ _

/-- A batch with fewer rows than it could have ends its cursor. -/
theorem end_of_length_lt (hc : p.cursor.Regular) (h : Follows f p batch next)
    (hlt : batch.rows.length < max f.fetchSize 1) :
    p.cursor.rowAt? (p.offset + batch.rows.length) = none := by
  rw [h.rows_eq] at hlt ⊢
  exact hc.rowAt?_of_length_lt hlt

/-- The rows before a place and those of the batch there. -/
theorem rows_append (hc : p.cursor.Regular) (h : Follows f p batch next) :
    p.rows ++ batch.rows = (p.advance batch.rows.length).rows := by
  have happend := hc.firstRows_append p.offset (max f.fetchSize 1)
  rw [← h.rows_eq] at happend
  rw [Position.rows, List.append_assoc, happend]
  rfl

/-- Only a batch at the end of the last cursor says that there are no more. -/
theorem hasNext_eq_false_iff (h : Follows f p batch next) :
    batch.hasNext = false ↔
      p.cursor.rowAt? (p.offset + batch.rows.length) = none ∧ p.cursor.hasNextBatch = false := by
  cases h with
  | goOn hrows hmore hnext => simp [hmore, hnext]
  | chain hrows hend hpromise hexecute hnext => simp [hpromise, hnext]
  | finish hrows hend hpromise hnext => simp [hend, hpromise, hnext]

/-- Once there are no more batches, all rows of the stream have been served. -/
theorem wholeStream (hp : f.Yields p.index p.before p.cursor) (h : Follows f p batch next)
    (hnext : batch.hasNext = false) : f.WholeStream (p.advance batch.rows.length).rows := by
  obtain ⟨hend, hpromise⟩ := h.hasNext_eq_false_iff.mp hnext
  exact ⟨p.index, p.before, p.cursor, p.offset + batch.rows.length, hp, hend, hpromise, rfl⟩

/-- If a batch completes the stream and still says that there are more, then the cursor that it
drains promises another one. -/
theorem drains_of_wholeStream (hf : f.Reliable) (hp : f.Yields p.index p.before p.cursor)
    (h : Follows f p batch next) (hnext : batch.hasNext = true)
    (hwhole : f.WholeStream (p.advance batch.rows.length).rows) :
    p.cursor.rowAt? (p.offset + batch.rows.length) = none ∧ p.cursor.hasNextBatch = true := by
  cases h with
  | @goOn row hrows hmore hnext =>
    have hrest : f.StreamPrefix ((p.advance batch.rows.length).rows ++ [row]) := by
      refine ⟨p.index, p.before, p.cursor, p.offset + batch.rows.length + 1, hp, ?_⟩
      rw [Cursor.firstRows_succ_of_some hmore, ← List.append_assoc]
      rfl
    exact absurd hrest (hwhole.not_streamPrefix_concat hf)
  | chain hrows hend hpromise hexecute hnext => exact ⟨hend, hpromise⟩
  | finish hrows hend hpromise hnext' =>
    rw [hnext'] at hnext
    cases hnext

/-- Where cursors have the rows that were promised, a batch says that there are no more exactly
if it completes the stream. -/
theorem hasNext_eq_false_iff_wholeStream (hf : f.Reliable) (hkeeps : f.KeepsPromises)
    (hp : f.Yields p.index p.before p.cursor) (h : Follows f p batch next) :
    batch.hasNext = false ↔ f.WholeStream (p.advance batch.rows.length).rows := by
  refine ⟨h.wholeStream hp, ?_⟩
  intro hwhole
  cases hnext : batch.hasNext with
  | false => rfl
  | true =>
    obtain ⟨hend, hpromise⟩ := h.drains_of_wholeStream hf hp hnext hwhole
    obtain ⟨c, hexecute⟩ := hf.next hp hend hpromise
    have hc := hp.next hend hpromise hexecute
    obtain ⟨row, hrow⟩ := Option.ne_none_iff_exists'.mp (hkeeps _ _ _ hc)
    have hrest : f.StreamPrefix ((p.advance batch.rows.length).rows ++ [row]) := by
      refine ⟨_, _, c, 1, hc, ?_⟩
      rw [Cursor.firstRows_succ_of_some hrow]
      rfl
    exact absurd hrest (hwhole.not_streamPrefix_concat hf)

/-- Nothing follows the last batch. -/
theorem next_eq_none (h : Follows f p batch next) (hnext : batch.hasNext = false) :
    next = none := by
  cases h with
  | goOn hrows hmore htrue =>
    rw [hnext] at htrue
    cases htrue
  | chain hrows hend hpromise hexecute htrue =>
    rw [hnext] at htrue
    cases htrue
  | finish => rfl

end Follows

/-- A batch of a task, after earlier ones and before later ones: it has the next rows of one
cursor, and fewer than it could have only if they are the last ones there. It says that there are
no more batches exactly at the end of a cursor that promises no other one. -/
structure Factory.Delivers (f : Factory) (earlier : List Batch) (batch : Batch)
    (later : List Batch) : Prop where
  length_le : batch.rows.length ≤ max f.fetchSize 1
  rows : ∃ k before c n, f.Yields k before c ∧
    earlier.flatMap Batch.rows = before ++ c.firstRows n ∧
    batch.rows = c.rowsFrom n batch.rows.length ∧
    (batch.rows.length < max f.fetchSize 1 → c.rowAt? (n + batch.rows.length) = none) ∧
    (batch.hasNext = false ↔
      c.rowAt? (n + batch.rows.length) = none ∧ c.hasNextBatch = false) ∧
    (batch.hasNext = true → f.WholeStream ((earlier ++ [batch]).flatMap Batch.rows) →
      c.rowAt? (n + batch.rows.length) = none ∧ c.hasNextBatch = true)
  whole : batch.hasNext = false → f.WholeStream ((earlier ++ [batch]).flatMap Batch.rows)
  last : batch.hasNext = false → later = []
  promises : f.KeepsPromises →
    (batch.hasNext = false ↔ f.WholeStream ((earlier ++ [batch]).flatMap Batch.rows))

namespace Factory.Serves

variable {f : Factory} {batches : List Batch} {p : Position}

/-- Batches have all rows before the place where they leave off. -/
theorem yields_and_rows (hf : f.Reliable) (h : f.Serves batches (some p)) :
    f.Yields p.index p.before p.cursor ∧ batches.flatMap Batch.rows = p.rows := by
  generalize hp : some p = next at h
  induction h generalizing p with
  | start hexecute =>
    cases hp
    exact ⟨.first hexecute, rfl⟩
  | batch hbatches hbatch ih =>
    obtain ⟨hyields, hrows⟩ := ih rfl
    have hall := hbatch.rows_append (hf.regular hyields)
    rw [List.flatMap_append, List.flatMap_singleton, hrows, hall]
    cases hbatch with
    | goOn hrows hmore hnext =>
      cases hp
      exact ⟨hyields, rfl⟩
    | chain hrows hend hpromise hexecute hnext =>
      cases hp
      refine ⟨.next hyields hend hpromise hexecute, ?_⟩
      exact (List.append_nil _).symm
    | finish => cases hp

/-- Any batch is cut off where those before it leave off, and there is none after the end. -/
theorem split {next : Option Position} (h : f.Serves batches next) {l r : List Batch}
    {batch : Batch} (hsplit : batches = l ++ batch :: r) :
    ∃ p next', f.Serves l (some p) ∧ Follows f p batch next' ∧
      (r = [] → next' = next) ∧ (next' = none → r = []) := by
  induction h generalizing l r with
  | start hexecute => exact absurd hsplit.symm (by simp)
  | @batch batches p₀ last next hbatches hlast ih =>
    rcases List.eq_nil_or_concat r with rfl | ⟨r', last', rfl⟩
    · obtain ⟨rfl, heq⟩ := List.append_inj' hsplit rfl
      cases heq
      exact ⟨p₀, next, hbatches, hlast, fun _ => rfl, fun _ => rfl⟩
    · have hcons : l ++ batch :: r'.concat last' = (l ++ batch :: r') ++ [last'] := by
        simp
      obtain ⟨hbefore, -⟩ := List.append_inj' (hsplit.trans hcons) rfl
      obtain ⟨p, next', hl, hbatch, hlastOf, hnone⟩ := ih hbefore
      refine ⟨p, next', hl, hbatch, ?_, ?_⟩
      · intro hr
        exact absurd hr (by simp)
      · -- the batch is not the last one, so it leaves off somewhere
        intro hend
        have hsome := hlastOf (hnone hend)
        rw [hend] at hsome
        cases hsome

/-- The earlier ones of batches that are cut off from the front are, too. -/
theorem left_of_append (hf : f.Reliable) {next : Option Position} {l r : List Batch}
    (h : f.Serves (l ++ r) next) : ∃ next', f.Serves l next' := by
  rcases List.eq_nil_or_concat l with rfl | ⟨l', batch, rfl⟩
  · obtain ⟨c, hexecute⟩ := hf.first
    exact ⟨_, .start hexecute⟩
  · have hcons : l'.concat batch ++ r = l' ++ batch :: r := by simp
    obtain ⟨p, next', hl, hbatch, -⟩ := h.split hcons
    rw [List.concat_eq_append]
    exact ⟨next', hl.batch hbatch⟩

theorem delivers (hf : f.Reliable) {next : Option Position} (h : f.Serves batches next)
    {l r : List Batch} {batch : Batch} (hsplit : batches = l ++ batch :: r) :
    f.Delivers l batch r := by
  obtain ⟨p, next', hl, hbatch, -, hend⟩ := h.split hsplit
  obtain ⟨hyields, hrows⟩ := hl.yields_and_rows hf
  have hregular := hf.regular hyields
  have hall : (l ++ [batch]).flatMap Batch.rows = (p.advance batch.rows.length).rows := by
    rw [List.flatMap_append, List.flatMap_singleton, hrows, hbatch.rows_append hregular]
  constructor
  · exact hbatch.length_le
  · refine ⟨p.index, p.before, p.cursor, p.offset, hyields, hrows, ?_,
      hbatch.end_of_length_lt hregular, hbatch.hasNext_eq_false_iff, ?_⟩
    · rw [hbatch.rows_eq, hregular.rowsFrom_length]
    · rw [hall]
      exact hbatch.drains_of_wholeStream hf hyields
  · rw [hall]
    exact hbatch.wholeStream hyields
  · intro hnext
    exact hend (hbatch.next_eq_none hnext)
  · intro hkeeps
    rw [hall]
    exact hbatch.hasNext_eq_false_iff_wholeStream hf hkeeps hyields

/-- The stream begins with the rows of the batches. -/
theorem streamPrefix (hf : f.Reliable) {next : Option Position} (h : f.Serves batches next) :
    f.StreamPrefix (batches.flatMap Batch.rows) := by
  cases h with
  | start hexecute => exact ⟨0, [], _, 0, .first hexecute, rfl⟩
  | @batch batches p last _ hbatches hlast =>
    obtain ⟨hyields, hrows⟩ := hbatches.yields_and_rows hf
    refine ⟨p.index, p.before, p.cursor, p.offset + last.rows.length, hyields, ?_⟩
    rw [List.flatMap_append, List.flatMap_singleton, hrows, hlast.rows_append (hf.regular hyields)]
    rfl

end Factory.Serves

end PagedQuery.Task
