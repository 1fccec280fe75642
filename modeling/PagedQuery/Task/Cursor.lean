import PagedQuery.Field
import PagedQuery.Value

/-!
# Cursors

A cursor is asked for one row after the other and never goes back. To know
whether a batch is the last one, one row is read ahead and kept.

* `Fault`, `Cursor`: what may go wrong, and the rows of one statement;
* `Lookahead`: a cursor with the row that was read ahead;
* `Lookahead.read`, `Lookahead.hasMore`: a batch of rows, and whether rows are left.
-/

namespace PagedQuery.Task

/-- Why work on a task did not succeed. -/
inductive Fault where
  /-- An error that was reported. -/
  | failed (message : String)
  /-- The code broke off without reporting an error. -/
  | crashed
deriving DecidableEq

abbrev Row := List Value

/-- Name and type of a result column. -/
structure Column where
  name : String
  fieldType : FieldType
deriving DecidableEq

/-- What a cursor gives when it is asked for a row. -/
inductive RowAnswer where
  | row (row : Row)
  /-- There are no more rows. -/
  | exhausted
  | fault (fault : Fault)

/-- The rows of one statement. The answer to each request is fixed by the number of requests
before it, which is all that a caller can vary. -/
structure Cursor where
  columns : List Column
  /-- Whether asking for the columns breaks off. -/
  columnsCrash : Bool
  answer : Nat → RowAnswer
  /-- The number of requests so far. -/
  asked : Nat
  /-- Whether another computation goes on after the last row. -/
  hasNextBatch : Bool

namespace Cursor

/-- Asks for a row; `none` when there are no more. -/
def next (c : Cursor) : Except Fault (Option Row) × Cursor :=
  let answer := match c.answer c.asked with
    | .row row => .ok (some row)
    | .exhausted => .ok none
    | .fault fault => .error fault
  (answer, { c with asked := c.asked + 1 })

end Cursor

/-- A cursor and the row that was read ahead, if there is one. -/
structure Lookahead where
  cursor : Cursor
  peeked : Option Row

namespace Lookahead

def ofCursor (cursor : Cursor) : Lookahead :=
  { cursor, peeked := none }

/-- The next row: the one read ahead, or one from the cursor. -/
def next (l : Lookahead) : Except Fault (Option Row) × Lookahead :=
  match l.peeked with
  | some row => (.ok (some row), { l with peeked := none })
  | none => (l.cursor.next.1, { l with cursor := l.cursor.next.2 })

/-- Reads at most `limit` rows. -/
def read (l : Lookahead) : (limit : Nat) → Except Fault (List Row) × Lookahead
  | 0 => (.ok [], l)
  | limit + 1 =>
    match l.next with
    | (.error fault, l) => (.error fault, l)
    | (.ok none, l) => (.ok [], l)
    | (.ok (some row), l) =>
      match l.read limit with
      | (.error fault, l) => (.error fault, l)
      | (.ok rows, l) => (.ok (row :: rows), l)

/-- Whether a row is left; reads one ahead to know. -/
def hasMore (l : Lookahead) : Except Fault Bool × Lookahead :=
  match l.peeked with
  | some _ => (.ok true, l)
  | none =>
    match l.cursor.next with
    | (.error fault, cursor) => (.error fault, { l with cursor })
    | (.ok row, cursor) => (.ok row.isSome, { cursor, peeked := row })

/-- Reads a batch of at most `limit` rows and finds out whether more are left. -/
def readBatch (l : Lookahead) (limit : Nat) : Except Fault (List Row × Bool) × Lookahead :=
  match l.read limit with
  | (.error fault, l) => (.error fault, l)
  | (.ok rows, l) =>
    match l.hasMore with
    | (.error fault, l) => (.error fault, l)
    | (.ok more, l) => (.ok (rows, more), l)

end Lookahead

/-- A bounded part of the rows of a task. -/
structure Batch where
  rows : List Row
  columns : List Column
  /-- Whether another fetch will go on. -/
  hasNext : Bool
deriving DecidableEq

end PagedQuery.Task
