import PagedQuery.Text.Digits

/-!
# Dates and timestamps

Dates of the proleptic Gregorian calendar, and timestamps without a time zone.
A second may be a leap second, which is kept as nanoseconds beyond one second
of second 59.

* `Date`, `Date.of?`, `Date.next?`, `Date.previous?`;
* `Timestamp`, `Timestamp.of?`;
* `Date.text`, `Timestamp.text`: the ISO form.
-/

namespace PagedQuery

/-! ## Dates -/

namespace Date

def isLeapYear (year : Int) : Bool :=
  year % 4 = 0 && (year % 100 ≠ 0 || year % 400 = 0)

def daysInMonth (year : Int) (month : Nat) : Nat :=
  if month = 2 then if isLeapYear year then 29 else 28
  else if month = 4 ∨ month = 6 ∨ month = 9 ∨ month = 11 then 30
  else 31

/-- The dates that exist, in the years that are kept. -/
def Valid (year : Int) (month day : Nat) : Prop :=
  -262143 ≤ year ∧ year ≤ 262142 ∧ 1 ≤ month ∧ month ≤ 12 ∧ 1 ≤ day ∧ day ≤ daysInMonth year month

instance (year : Int) (month day : Nat) : Decidable (Valid year month day) := by
  unfold Valid; infer_instance

end Date

/-- A calendar date. -/
structure Date where
  year : Int
  month : Nat
  day : Nat
  valid : Date.Valid year month day
deriving DecidableEq

namespace Date

/-- The date of the given numbers, if there is one. -/
def of? (year : Int) (month day : Nat) : Option Date :=
  if valid : Valid year month day then some ⟨year, month, day, valid⟩ else none

/-- The day after; there is none after the last year. -/
def next? (d : Date) : Option Date :=
  if d.day < daysInMonth d.year d.month then of? d.year d.month (d.day + 1)
  else if d.month < 12 then of? d.year (d.month + 1) 1
  else of? (d.year + 1) 1 1

/-- The day before; there is none before the first year. -/
def previous? (d : Date) : Option Date :=
  if 1 < d.day then of? d.year d.month (d.day - 1)
  else if 1 < d.month then of? d.year (d.month - 1) (daysInMonth d.year (d.month - 1))
  else of? (d.year - 1) 12 31

/-- A year in at least four digits; years that need more have a sign, as have negative ones. -/
def yearText (year : Int) : List Char :=
  let digits := Text.pad 4 year.natAbs
  if year < 0 then '-' :: digits
  else if 9999 < year then '+' :: digits
  else digits

/-- The form `YYYY-MM-DD`. -/
def chars (d : Date) : List Char :=
  yearText d.year ++ '-' :: Text.pad 2 d.month ++ '-' :: Text.pad 2 d.day

def text (d : Date) : String :=
  String.ofList d.chars

end Date

/-! ## Timestamps -/

namespace Timestamp

/-- The times of a day; nanoseconds beyond a second belong to a leap second after second 59. -/
def Valid (hour minute second nanos : Nat) : Prop :=
  hour < 24 ∧ minute < 60 ∧ second < 60 ∧ nanos < 2000000000 ∧ (1000000000 ≤ nanos → second = 59)

instance (hour minute second nanos : Nat) : Decidable (Valid hour minute second nanos) := by
  unfold Valid; infer_instance

end Timestamp

/-- A date and a time of day. -/
structure Timestamp where
  date : Date
  hour : Nat
  minute : Nat
  second : Nat
  nanos : Nat
  valid : Timestamp.Valid hour minute second nanos
deriving DecidableEq

namespace Timestamp

/-- The timestamp of the given numbers, if there is one. -/
def of? (date : Date) (hour minute second nanos : Nat) : Option Timestamp :=
  if valid : Valid hour minute second nanos then some ⟨date, hour, minute, second, nanos, valid⟩
  else none

/-- The second that is written: 60 in a leap second. -/
def writtenSecond (t : Timestamp) : Nat :=
  if 1000000000 ≤ t.nanos then t.second + 1 else t.second

/-- A fraction of a second in 3, 6 or 9 digits, the fewest that are exact; nothing for 0. -/
def fractionText (nanos : Nat) : List Char :=
  if nanos = 0 then []
  else if nanos % 1000000 = 0 then '.' :: Text.pad 3 (nanos / 1000000)
  else if nanos % 1000 = 0 then '.' :: Text.pad 6 (nanos / 1000)
  else '.' :: Text.pad 9 nanos

/-- The form `YYYY-MM-DDTHH:MM:SS` with the fraction of the second, if there is one. -/
def chars (t : Timestamp) : List Char :=
  t.date.chars ++ 'T' :: Text.pad 2 t.hour ++ ':' :: Text.pad 2 t.minute ++
    ':' :: Text.pad 2 t.writtenSecond ++ fractionText (t.nanos % 1000000000)

def text (t : Timestamp) : String :=
  String.ofList t.chars

end Timestamp

end PagedQuery
