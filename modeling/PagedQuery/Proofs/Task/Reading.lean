import PagedQuery.Task.Cursor

/-!
# Reading a cursor

A cursor that never fails and that stays exhausted once it is has a sequence of
rows, finite or not. Batches are read from it one after the other; a lookahead
may be one row further than what was delivered, or past the end.

* `Cursor.rowAt?`, `Cursor.firstRows`, `Cursor.rowsFrom`: the rows of a cursor;
* `Cursor.Regular`: cursors without surprises;
* `Lookahead.At`: a lookahead after so many delivered rows;
* `Lookahead.readBatch_eq`: what a batch is, and where the lookahead stands after it.
-/

namespace PagedQuery.Task

namespace Cursor

/-- The cursor after a number of requests. -/
def skip (c : Cursor) (n : Nat) : Cursor :=
  { c with asked := c.asked + n }

/-- The answer to a later request, if it is a row. -/
def rowAt? (c : Cursor) (i : Nat) : Option Row :=
  match c.answer (c.asked + i) with
  | .row row => some row
  | _ => none

/-- The rows among `limit` answers, from the `n`-th on. -/
def rowsFrom (c : Cursor) (n limit : Nat) : List Row :=
  (List.range' n limit).filterMap c.rowAt?

/-- The rows among the first answers. -/
def firstRows (c : Cursor) (n : Nat) : List Row :=
  c.rowsFrom 0 n

/-- Nothing breaks off or fails, and an exhausted cursor stays exhausted. -/
structure Regular (c : Cursor) : Prop where
  answers : ∀ i fault, c.answer (c.asked + i) ≠ .fault fault
  exhausted : ∀ i, c.rowAt? i = none → c.rowAt? (i + 1) = none
  columns : c.columnsCrash = false

variable {c : Cursor}

theorem Regular.rowAt?_eq_none_of_le (hc : c.Regular) {i j : Nat} (hi : c.rowAt? i = none)
    (hij : i ≤ j) : c.rowAt? j = none := by
  induction hij with
  | refl => exact hi
  | step _ ih => exact hc.exhausted _ ih

@[simp] theorem rowsFrom_zero (n : Nat) : c.rowsFrom n 0 = [] := rfl

theorem rowsFrom_succ_of_some {n : Nat} {row : Row} (hrow : c.rowAt? n = some row) (limit : Nat) :
    c.rowsFrom n (limit + 1) = row :: c.rowsFrom (n + 1) limit := by
  rw [rowsFrom, List.range'_succ, List.filterMap_cons, hrow]
  rfl

theorem Regular.rowsFrom_of_none (hc : c.Regular) {n : Nat} (hrow : c.rowAt? n = none)
    (limit : Nat) : c.rowsFrom n limit = [] := by
  rw [rowsFrom, List.filterMap_eq_nil_iff]
  intro i hi
  exact hc.rowAt?_eq_none_of_le hrow (List.mem_range'_1.mp hi).1

theorem length_rowsFrom_le (n limit : Nat) : (c.rowsFrom n limit).length ≤ limit := by
  have hle := List.length_filterMap_le c.rowAt? (List.range' n limit)
  rwa [List.length_range'] at hle

theorem firstRows_add (n limit : Nat) :
    c.firstRows (n + limit) = c.firstRows n ++ c.rowsFrom n limit := by
  rw [firstRows, firstRows, rowsFrom, rowsFrom, rowsFrom, ← List.filterMap_append]
  congr 1
  rw [← List.range'_append_1, Nat.zero_add]

theorem firstRows_succ_of_some {n : Nat} {row : Row} (hrow : c.rowAt? n = some row) :
    c.firstRows (n + 1) = c.firstRows n ++ [row] := by
  rw [firstRows_add, rowsFrom_succ_of_some hrow, rowsFrom_zero]

/-- Fewer rows than asked for are the last ones. -/
theorem Regular.rowAt?_of_length_lt (hc : c.Regular) {n limit : Nat}
    (hlt : (c.rowsFrom n limit).length < limit) :
    c.rowAt? (n + (c.rowsFrom n limit).length) = none := by
  induction limit generalizing n with
  | zero => exact absurd hlt (Nat.not_lt_zero _)
  | succ limit ih =>
    cases hrow : c.rowAt? n with
    | none =>
      rw [hc.rowsFrom_of_none hrow]
      exact hrow
    | some row =>
      rw [rowsFrom_succ_of_some hrow] at hlt ⊢
      rw [List.length_cons] at hlt ⊢
      have hrest := ih (Nat.lt_of_succ_lt_succ hlt)
      rwa [Nat.add_right_comm] at hrest

theorem Regular.rowsFrom_length (hc : c.Regular) (n limit : Nat) :
    c.rowsFrom n (c.rowsFrom n limit).length = c.rowsFrom n limit := by
  induction limit generalizing n with
  | zero => rfl
  | succ limit ih =>
    cases hrow : c.rowAt? n with
    | none =>
      rw [hc.rowsFrom_of_none hrow (limit + 1)]
      rfl
    | some row =>
      rw [rowsFrom_succ_of_some hrow, List.length_cons, rowsFrom_succ_of_some hrow, ih]

/-- The rows of a batch are the next ones. -/
theorem Regular.firstRows_append (hc : c.Regular) (n limit : Nat) :
    c.firstRows n ++ c.rowsFrom n limit = c.firstRows (n + (c.rowsFrom n limit).length) := by
  rw [firstRows_add, hc.rowsFrom_length]

/-- All rows of a cursor, however far it is read past its end. -/
theorem Regular.firstRows_eq (hc : c.Regular) {m n : Nat} (hm : c.rowAt? m = none)
    (hn : c.rowAt? n = none) : c.firstRows m = c.firstRows n := by
  have hle {m n : Nat} (hm : c.rowAt? m = none) (hmn : m ≤ n) :
      c.firstRows n = c.firstRows m := by
    obtain ⟨d, rfl⟩ := Nat.exists_eq_add_of_le hmn
    rw [firstRows_add, hc.rowsFrom_of_none hm, List.append_nil]
  rcases Nat.le_total m n with hmn | hnm
  · exact (hle hm hmn).symm
  · exact hle hn hnm

theorem Regular.prefix_firstRows (hc : c.Regular) {m : Nat} (hm : c.rowAt? m = none) (n : Nat) :
    c.firstRows n <+: c.firstRows m := by
  rcases Nat.le_total n m with hnm | hmn
  · obtain ⟨d, rfl⟩ := Nat.exists_eq_add_of_le hnm
    rw [firstRows_add]
    exact List.prefix_append _ _
  · refine ⟨[], ?_⟩
    rw [List.append_nil]
    exact hc.firstRows_eq (hc.rowAt?_eq_none_of_le hm hmn) hm

theorem Regular.next_skip (hc : c.Regular) (n : Nat) :
    (c.skip n).next = (.ok (c.rowAt? n), c.skip (n + 1)) := by
  unfold next rowAt?
  cases hanswer : c.answer (c.asked + n) with
  | row row => simp [skip, hanswer, Nat.add_assoc]
  | exhausted => simp [skip, hanswer, Nat.add_assoc]
  | fault fault => exact absurd hanswer (hc.answers n fault)

end Cursor

namespace Lookahead

/-- The lookahead has delivered `n` rows of a cursor. It has read one more, or none, or it is
past the end. -/
def At (l : Lookahead) (c : Cursor) (n : Nat) : Prop :=
  match l.peeked with
  | some row => c.rowAt? n = some row ∧ l.cursor = c.skip (n + 1)
  | none => ∃ m, l.cursor = c.skip m ∧ (m = n ∨ n ≤ m ∧ c.rowAt? n = none)

variable {l : Lookahead} {c : Cursor} {n : Nat}

theorem at_ofCursor (c : Cursor) : (ofCursor c).At c 0 :=
  ⟨0, rfl, .inl rfl⟩

/-- Reading changes nothing about a cursor but how often it was asked. -/
theorem At.exists_skip (h : l.At c n) : ∃ m, l.cursor = c.skip m := by
  unfold At at h
  split at h
  · exact ⟨n + 1, h.2⟩
  · obtain ⟨m, hcursor, -⟩ := h
    exact ⟨m, hcursor⟩

/-- The next answer of the cursor under a lookahead that has read no row ahead. -/
theorem rowAt?_of_past (hc : c.Regular) {m : Nat} (hm : m = n ∨ n ≤ m ∧ c.rowAt? n = none) :
    c.rowAt? m = c.rowAt? n := by
  rcases hm with rfl | ⟨hle, hnone⟩
  · rfl
  · rw [hnone, hc.rowAt?_eq_none_of_le hnone hle]

theorem eq_of_past {m : Nat} {row : Row} (hm : m = n ∨ n ≤ m ∧ c.rowAt? n = none)
    (hrow : c.rowAt? n = some row) : m = n := by
  rcases hm with rfl | ⟨-, hnone⟩
  · rfl
  · rw [hrow] at hnone
    cases hnone

/-- At its end a cursor may be asked once more. -/
theorem at_past {m : Nat} (hm : m = n ∨ n ≤ m ∧ c.rowAt? n = none) (hn : c.rowAt? n = none) :
    (⟨c.skip (m + 1), none⟩ : Lookahead).At c n := by
  refine ⟨m + 1, rfl, .inr ⟨?_, hn⟩⟩
  rcases hm with rfl | ⟨hle, -⟩
  · exact Nat.le_succ m
  · exact Nat.le_succ_of_le hle

/-- Whether the lookahead has a row at hand or not, it gives the next one. -/
theorem At.next_eq (hc : c.Regular) (h : l.At c n) :
    ∃ l', l.next = (.ok (c.rowAt? n), l') ∧ l'.At c (n + (c.rowAt? n).toList.length) := by
  obtain ⟨cursor, peeked⟩ := l
  cases peeked with
  | some row =>
    obtain ⟨hrow, rfl⟩ := h
    rw [hrow]
    exact ⟨⟨c.skip (n + 1), none⟩, rfl, n + 1, rfl, .inl rfl⟩
  | none =>
    obtain ⟨m, rfl, hm⟩ := h
    refine ⟨⟨c.skip (m + 1), none⟩, ?_, ?_⟩
    · simp only [next, hc.next_skip, rowAt?_of_past hc hm]
    · cases hn : c.rowAt? n with
      | some row =>
        cases eq_of_past hm hn
        exact ⟨n + 1, rfl, .inl rfl⟩
      | none => exact at_past hm hn

/-- Reading gives the next rows, as many as there are up to the limit. -/
theorem At.read_eq (hc : c.Regular) (h : l.At c n) (limit : Nat) :
    ∃ l', l.read limit = (.ok (c.rowsFrom n limit), l') ∧
      l'.At c (n + (c.rowsFrom n limit).length) := by
  induction limit generalizing l n with
  | zero => exact ⟨l, rfl, h⟩
  | succ limit ih =>
    obtain ⟨l₁, hnext, hl₁⟩ := h.next_eq hc
    unfold read
    rw [hnext]
    cases hrow : c.rowAt? n with
    | none =>
      rw [hrow] at hl₁
      rw [hc.rowsFrom_of_none hrow]
      exact ⟨l₁, rfl, hl₁⟩
    | some row =>
      rw [hrow] at hl₁
      obtain ⟨l₂, hread, hl₂⟩ := ih hl₁
      refine ⟨l₂, ?_, ?_⟩
      · rw [Cursor.rowsFrom_succ_of_some hrow]
        dsimp only
        rw [hread]
        rfl
      · rw [Cursor.rowsFrom_succ_of_some hrow, List.length_cons]
        rwa [Nat.add_right_comm, Nat.add_assoc] at hl₂

/-- Looking for another row delivers none. -/
theorem At.hasMore_eq (hc : c.Regular) (h : l.At c n) :
    ∃ l', l.hasMore = (.ok (c.rowAt? n).isSome, l') ∧ l'.At c n := by
  obtain ⟨cursor, peeked⟩ := l
  cases peeked with
  | some row =>
    have hrow := h.1
    rw [hrow]
    exact ⟨_, rfl, h⟩
  | none =>
    obtain ⟨m, rfl, hm⟩ := h
    refine ⟨⟨c.skip (m + 1), c.rowAt? n⟩, ?_, ?_⟩
    · simp only [hasMore, hc.next_skip, rowAt?_of_past hc hm]
    · cases hn : c.rowAt? n with
      | some row =>
        cases eq_of_past hm hn
        exact ⟨hn, rfl⟩
      | none => exact at_past hm hn

/-- A batch has the next rows, and says whether there are any after them. -/
theorem At.readBatch_eq (hc : c.Regular) (h : l.At c n) (limit : Nat) :
    ∃ l', l.readBatch limit =
        (.ok (c.rowsFrom n limit, (c.rowAt? (n + (c.rowsFrom n limit).length)).isSome), l') ∧
      l'.At c (n + (c.rowsFrom n limit).length) := by
  obtain ⟨l₁, hread, hl₁⟩ := h.read_eq hc limit
  obtain ⟨l₂, hmore, hl₂⟩ := hl₁.hasMore_eq hc
  refine ⟨l₂, ?_, hl₂⟩
  unfold readBatch
  simp only [hread, hmore]

end Lookahead

end PagedQuery.Task
